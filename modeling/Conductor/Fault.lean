import Conductor.Catalog.Basic
import Conductor.Command.Basic
import Conductor.Json.Reader
import Conductor.Script.Plan
import Conductor.Store.Text
import Conductor.Template.Resolution

/-!
# What can go wrong

All causes for which a command ends without an outcome. Some are the program's own, found in what it
was given; an agent call that fails or is cancelled is one too; the rest comes from outside.
-/

namespace Conductor

open Text

/-- A failed agent call. -/
structure CallFailure where
  message : String
  agentId : Option String := none
  exitCode : Option Int := none
  deriving DecidableEq, Repr

/-- The program's own kinds of faults other than a failed or cancelled call. -/
inductive OwnKind where
  | general
  | catalog
  | template
  | reference
  | missingFields
  | script
  | signal
  deriving DecidableEq, Repr

/-- Why a command ended without an outcome. -/
inductive Fault where
  | catalog (f : CatalogFault)
  | template (f : TemplateFault)
  | resolve (f : ResolveFault)
  | script (e : Script.SyntaxError)
  | signal (message : String)
  /-- A fault of an own kind that an engine reports. -/
  | own (kind : OwnKind) (message : String)
  | failed (f : CallFailure)
  | cancelled (f : CallFailure)
  | invalid (title : String) (issues : List Schema.Issue)
  | settings (field source : String)
  | read (e : ReadFault)
  | file (e : FileError)
  | json (e : Json.ReadError) (text : String)
  | value (message : String)
  | unknownLevel (name : String)
  | unknownRun (id : String)
  /-- A call has no command. -/
  | command (f : Command.Fault)
  /-- A failure of an engine that is none of the program's own. -/
  | foreign (message : String)
  /-- A run took more steps than it may. -/
  | endless
  deriving DecidableEq, Repr

/-- What went wrong. -/
def Fault.message : Fault → String
  | catalog f => f.message
  | template f => f.message
  | resolve f => f.message
  | script e => e.message
  | signal m => m
  | own _ m => m
  | failed f => f.message
  | cancelled f => f.message
  | invalid title issues => Schema.issuesMessage title issues
  | settings field source => s!"error parsing value for field \"{field}\" from source \"{source}\""
  | read e => e.message
  | file e => e.message
  | json e text => e.message text
  | value m => m
  | unknownLevel name => s!"Unknown level: {quoted name}"
  | unknownRun id => quoted id
  | command f => f.message
  | foreign m => m
  | endless => "the run took more steps than it may"

/-- Whether a fault is one of the program's own, which a task of a script reports as its failure. -/
def Fault.isOwn : Fault → Bool
  | catalog _ | template _ | resolve _ | script _ => true
  | signal _ | own .. | failed _ | cancelled _ => true
  | _ => false

/-- Whether a fault lies in what the program was given, so that nothing ran. -/
def Fault.isUsage : Fault → Bool
  | catalog _ | template _ | resolve _ | script _ => true
  | own kind _ => kind ≠ .general && kind ≠ .signal
  | _ => false

end Conductor
