import Conductor.CommandLine.Perform

/-!
# What a request reads

The paths that a request reads, as far as the files at hand tell: the file of variables, then what
the settings name, then what the catalog, the template and the script name. Main statement: the file
of variables is always read.
-/

namespace Conductor

/-- The files of prompts that a catalog names. -/
def Catalog.promptNames (c : Catalog) : List String := c.entries.filterMap (·.promptPath)

/-- The files of prompts that a template names. -/
def Template.promptNames (t : Template) : List String :=
  t.steps.filterMap (·.overrides.promptPath)

namespace CommandLine

/-- What an action yields without keeping what it changes, none where it fails. -/
def peek {α : Type} (a : Act α) (w : World) : Option α := (a.exec w).1.toOption

/-- The files that the task of a request names below its working directory. -/
def Task.names (w : World) : Task → List String
  | .run template _ => ((peek (Template.load template) w).map Template.promptNames).getD []
  | .orchestrate script =>
    ((Script.read script).toOption.map fun p => p.tasks.flatMap (·.inputFiles)).getD []
  | _ => []

/-- The file that the task of a request starts from. -/
def Task.file? : Task → Option Path
  | .run template _ => some template
  | _ => none

/-- The paths that a request reads under settings. -/
def Request.readsUnder (r : Request) (s : Settings) (w : World) : List Path :=
  let dir := r.place w.cwd
  let prompts := ((peek (Catalog.load s.catalogPath) w).map Catalog.promptNames).getD []
  r.task.file?.toList
    ++ [dir, s.catalogPath, s.trackingFile dir, s.registryFile dir, signalFile s.stateDir dir]
    ++ (prompts ++ r.task.names w).map fun name => dir / Path.ofString name

/-- The paths that a request reads. -/
def Request.reads (r : Request) (vars : Variables) (w : World) : List Path :=
  Settings.variablesFile ::
    ((peek (Settings.load vars []) w).map fun s => r.readsUnder (r.adjust s) w).getD []

theorem variablesFile_mem_reads (r : Request) (vars : Variables) (w : World) :
    Settings.variablesFile ∈ r.reads vars w :=
  List.mem_cons_self

end CommandLine

end Conductor
