import Conductor.Shell.Builtin
import Conductor.Shell.Expression

/-!
# Expansion

What the parts of a word stand for in a running shell: the values of parameters, sums, the output of
commands and home directories. The output of a command comes from a function that is given. Main
statement: quoted text stands for itself, whatever the state of the shell.
-/

namespace Conductor.Shell

open Text Process Run

/-! ### Parameters -/

namespace Process

/-- The characters at which unquoted expansions are split. -/
def separators (p : Process) : List Char := (p.lookUp? "IFS".toList).getD defaultSeparators

/-- What stands between arguments that are joined. -/
def joiner (p : Process) : List Char :=
  match p.lookUp? "IFS".toList with
  | some separators => separators.take 1
  | none => [' ']

/-- All arguments in one. -/
def joinedArguments (p : Process) : List Char := List.intercalate p.joiner p.arguments

/-- The value of a parameter. -/
def parameter? (p : Process) (name : List Char) : Option (List Char) :=
  match name with
  | ['#'] => some (decimal p.arguments.length)
  | ['?'] => some (decimal p.status)
  | ['$'] => some (decimal p.number)
  | ['!'] => p.lastJob.map fun n => decimal n
  | ['-'] => some (shownOptions p.options)
  | ['*'] => some p.joinedArguments
  | ['@'] => some p.joinedArguments
  | name =>
    if name.all Char.isDigit && !name.isEmpty then
      match digitsNumber 10 name with
      | 0 => some p.name
      | n + 1 => p.arguments[n]?
    else p.lookUp? name

/-- The items of all arguments: fields of their own where fields are wanted, unless a star in quotes
joins them. -/
def argumentItems (p : Process) (star quoted splits : Bool) : List Item :=
  let origin : Origin := if quoted then .quoted else .expanded
  let rec between (separator : Item) : List (List Item) → List Item
    | [] => []
    | [a] => a
    | a :: rest => a ++ separator :: between separator rest
  if splits && !quoted then between .gap (p.arguments.map (itemsOf origin))
  else if splits && !star then
    between .cut (p.arguments.map fun a => .mark :: itemsOf origin a)
  else itemsOf origin p.joinedArguments

/-- The variables as an expression sees them. -/
def scope (p : Process) : Scope := ⟨p.lookUp?, p.isFixed⟩

/-- The paths that patterns can match. -/
def directory (p : Process) : Directory :=
  { names := fun path =>
      let path := if path.isEmpty then ['.'] else path
      match p.machine.store.stat p.dir (pathOf path) with
      | .ok (place, .directory) =>
        p.machine.store.entries.filterMap fun e =>
          if e.1.dropLast = place then e.1.getLast?.map Octets.ofText else none
      | _ => []
    leads := fun path => (fileFacts p).holds "-e" path }

end Process

/-! ### Home directories -/

/-- The home directory that a tilde at the beginning of a text stands for, and the text behind it;
`whole` says that the text ends the word. -/
def tilde? (home : Option (List Char)) (inValue whole : Bool) (s : List Char) :
    Option (List Char × List Char) :=
  match s with
  | '~' :: rest =>
    let user := rest.takeWhile fun c => c ≠ '/' && !(inValue && c = ':')
    let behind := rest.drop user.length
    if behind.isEmpty && !whole then none
    else if user.isEmpty then home.map (·, behind)
    else if user = "root".toList then some ("/root".toList, behind)
    else none
  | _ => none

/-- A text with home directories at its beginning and, in a value, behind colons. -/
def tildeText (home : Option (List Char)) (inValue whole : Bool) : (fuel : Nat) →
    (atStart : Bool) → List Char → List Part
  | 0, _, s => [.text s false]
  | fuel + 1, atStart, s =>
    match if atStart then tilde? home inValue whole s else none with
    | some (dir, rest) => .text dir true :: tildeText home inValue whole fuel false rest
    | none =>
      let front := if inValue then s.takeWhile (· ≠ ':') else s
      match s.drop front.length with
      | c :: rest => .text (front ++ [c]) false :: tildeText home inValue whole fuel true rest
      | [] => if front.isEmpty then [] else [.text front false]

/-- A word with home directories; in a value they stand behind colons too. -/
def withHome (home : Option (List Char)) (inValue : Bool) : (atStart : Bool) → Word → Word
  | _, [] => []
  | atStart, .text s false :: rest =>
    let colon := inValue && s.getLast? = some ':'
    tildeText home inValue rest.isEmpty (s.length + 1) atStart s ++ withHome home inValue colon rest
  | _, p :: rest => p :: withHome home inValue false rest

/-- A word with the home directory of the running shell. -/
def homely (inValue : Bool) (w : Word) : Run Word := do
  return withHome ((← get).lookUp? "HOME".toList) inValue true w

/-! ### Words -/

/-- What a word is expanded for: whether fields are wanted, and whether the word stands for an
unquoted parameter. -/
structure Purpose where
  splits : Bool
  standsIn : Bool := false
  deriving DecidableEq, Repr, Inhabited

/-- What is told about a parameter that is not set. -/
def absenceWords (orEmpty : Bool) : List Char :=
  (if orEmpty then "parameter not set or null" else "parameter not set").toList

/-- Sets the variables that an expression has set. -/
def applyChanges (changes : List (List Char × Int64)) : Run Unit :=
  changes.forM fun (name, n) => assign name (decimal n.toInt) false

/-- The value of an expression. -/
def sumOf (text : List Char) : Run (List Char) := do
  match evaluateSum (← get).scope text with
  | .ok (n, changes) =>
    applyChanges changes
    return decimal n.toInt
  | .error f => fail (f.message text)

/-- Fails where a parameter has to be set and is not. -/
def requireSet (name : List Char) (value : Option (List Char)) : Run Unit := do
  if value.isNone && (← get).hasOption 'u' then
    fail (name ++ ": parameter not set".toList)

/-- A word up to a value with a word behind it. -/
def throughFollowed : Word → Word
  | [] => []
  | .parameter name (.followed word) quoted :: _ => [.parameter name (.followed word) quoted]
  | p :: rest => p :: throughFollowed rest

section
variable (outputOf : Option Command → Run (List Char))

mutual

/-- The items of a part. -/
def partItems (purpose : Purpose) (part : Part) : (depth : Nat) → Run (List Item)
  | 0 => throw .overdue
  | depth + 1 => do
    let origin (quoted : Bool) : Origin := if quoted then .quoted else .expanded
    match part with
    | .text s true => return itemsOf .quoted s
    | .text s false => return itemsOf (if purpose.standsIn then .expanded else .plain) s
    | .mark => return [.mark]
    | .output body quoted => return itemsOf (origin quoted) (← outputOf body)
    | .sum expression quoted =>
      let text := charsOf (← wordItems ⟨false, false⟩ expression depth)
      return itemsOf (origin quoted) (← sumOf text)
    | .parameter name use quoted =>
      let p ← get
      let value := p.parameter? name
      let items : List Item := match name with
        | ['@'] => p.argumentItems false quoted purpose.splits
        | ['*'] => p.argumentItems true quoted purpose.splits
        | _ => itemsOf (origin quoted) (value.getD [])
      match use with
      | .unknown => fail "Bad substitution".toList
      | .value =>
        requireSet name value
        return items
      | .followed word =>
        requireSet name value
        return items ++ (← wordItems purpose word depth)
      | .length =>
        requireSet name value
        return itemsOf (origin quoted) (decimal (value.getD []).length)
      | .trim atEnd longest pattern =>
        requireSet name value
        let ps := pieces (marksOf (← wordItems ⟨false, false⟩ (← homely false pattern) depth))
        let trim := if atEnd then trimEnd else trimStart
        return itemsOf (origin quoted) (trim longest ps (value.getD []))
      | .absent how orEmpty word =>
        let missing := value.isNone || orEmpty && value == some []
        let standIn : Run (List Item) := do
          wordItems ⟨purpose.splits, true⟩ (← homely false word) depth
        match how, missing with
        | .alternative, true => return []
        | .alternative, false => standIn
        | _, false => return items
        | .default, true => standIn
        | .assign, true =>
          let text := charsOf (← wordItems ⟨false, true⟩ (← homely false word) depth)
          requireName name
          assign name text false
          return itemsOf (origin quoted) text
        | .complain, true =>
          let text := charsOf (← wordItems ⟨false, true⟩ (← homely false word) depth)
          fail (name ++ ": ".toList ++ (if word.isEmpty then absenceWords orEmpty else text))

/-- The items of a word. -/
def wordItems (purpose : Purpose) (w : Word) : (depth : Nat) → Run (List Item)
  | 0 => throw .overdue
  | depth + 1 => do
    let items ← (throughFollowed w).mapM fun part => partItems purpose part depth
    return items.flatten

end

/-- Quoted text stands for itself, whatever the state of the shell. -/
theorem partItems_quoted (purpose : Purpose) (s : List Char) (depth : Nat) :
    partItems outputOf purpose (.text s true) (depth + 1) = pure (itemsOf .quoted s) := rfl

/-- How deep words may be nested. -/
def maxNesting : Nat := 10000

/-- The text of a word that makes no fields. -/
def expandText (w : Word) : Run (List Char) := do
  return charsOf (← wordItems outputOf ⟨false, false⟩ w maxNesting)

/-- The text of a word that makes no fields and may begin with a home directory. -/
def expandHomely (w : Word) : Run (List Char) := do expandText outputOf (← homely false w)

/-- The text of the value of an assignment. -/
def expandValue (w : Word) : Run (List Char) := do expandText outputOf (← homely true w)

/-- A word as a pattern. -/
def expandPattern (w : Word) : Run (List Piece) := do
  let items ← wordItems outputOf ⟨false, false⟩ (← homely false w) maxNesting
  return pieces (marksOf items)

/-- The fields of a word. -/
def expandFields (w : Word) : Run (List (List Char)) := do
  let items ← wordItems outputOf ⟨true, false⟩ (← homely false w) maxNesting
  let p ← get
  let fields := splitFields p.separators items
  return if p.hasOption 'f' then fields.map charsOf else fields.flatMap (expandPaths p.directory)

/-- The fields of words in order. -/
def expandAll (ws : List Word) : Run (List (List Char)) := do
  let fields ← ws.mapM (expandFields outputOf)
  return fields.flatten

/-- The fields of the first words up to one that makes any, and the words behind it. -/
def expandFirst : List Word → Run (List (List Char) × List Word)
  | [] => return ([], [])
  | w :: ws => do
    match ← expandFields outputOf w with
    | [] => expandFirst ws
    | fields => return (fields, ws)

end

end Conductor.Shell
