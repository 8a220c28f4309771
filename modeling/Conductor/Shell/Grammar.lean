import Conductor.Shell.Word

/-!
# The grammar of scripts

Tokens make commands. A script is read one line of commands at a time, so that what a line does can
change how the next one is read. Keywords and aliases count only where a command may begin. Main
statement: a keyword in quotes is a word like any other.
-/

namespace Conductor.Shell

open Reader

/-- What is looked for when a token is read: whether line feeds are passed over, and whether
keywords and aliases count. -/
structure Outlook where
  newlines : Bool := false
  keywords : Bool := false
  aliases : Bool := false

/-- The outlook where a command may begin. -/
def Outlook.command : Outlook := { keywords := true, aliases := true }

/-- The outlook where a command may begin, perhaps on a later line. -/
def Outlook.later : Outlook := { newlines := true, keywords := true, aliases := true }

/-! ### Tokens -/

section
variable (nested : Reader (Option Command))

/-- The redirection that begins with a sign that has been read; `number` is its stream. -/
def redirection (number : Option Nat) (c : Char) : Reader Token := do
  if c = '>' then
    let n := number.getD 1
    if ← skip '>' then return .file n .append
    else if ← skip '|' then return .file n .over
    else if ← skip '&' then return .copy n
    else return .file n .into
  else
    let n := number.getD 0
    if ← skip '<' then return .document n (← skip '-')
    else if ← skip '&' then return .copy n
    else if ← skip '>' then return .file n .fromInto
    else return .file n .from

/-- The stream that a word in front of a redirection numbers. -/
def streamNumber? : Word → Option (Option Nat)
  | [] => some none
  | [.text [c] false] => if c.isDigit then some (some (c.toNat - '0'.toNat)) else none
  | _ => none

/-- A word, or a redirection where one follows a number. -/
def wordToken (bare : Bool) : Reader Token := do
  let w ← wordOf nested bare
  match streamNumber? w, ← peek with
  | some n, some '<' =>
    advance
    redirection n '<'
  | some n, some '>' =>
    advance
    redirection n '>'
  | _, _ => return .word w

/-- A sign that may be doubled. -/
def signOrDouble (c : Char) : Reader Token := do
  advance
  if ← skip c then return .sign (String.ofList [c, c]) else return .sign (String.ofList [c])

/-- Drops blanks and a comment in front of a token. -/
def skipBlanks : Reader Unit := do
  let _ ← span fun c => c == ' ' || c == '\t'
  if (← peek) = some '#' then
    modify fun s => { s with rest := s.rest.dropWhile (· ≠ '\n') }

/-- The next token of the script. -/
def scan (bare : Bool) : Reader Token := do
  skipBlanks
  match ← peek with
  | none => return .ended
  | some '\n' =>
    advance
    return .newline
  | some '&' => signOrDouble '&'
  | some '|' => signOrDouble '|'
  | some ';' => signOrDouble ';'
  | some '(' =>
    advance
    return .sign "("
  | some ')' =>
    advance
    return .sign ")"
  | some _ => wordToken nested bare

/-- The next token, which may have been pushed. -/
def nextToken (bare : Bool) : Reader Token := do
  let s ← get
  match s.pushed with
  | some t =>
    set { s with pushed := none }
    return t
  | none => scan nested bare

/-- The text of the alias that a word is, unless that text is just being read. -/
def alias? (s : Source) (w : Word) : Option (List Char × List Char) := do
  let name ← bare? w
  let isOpen := s.replaced.any fun r => r.1 == name && r.2 < s.rest.length
  if isOpen then none else s.aliases.find? (·.1 == name)

/-- Puts the text of an alias in front of the rest. -/
def replaceAlias (name text : List Char) : Reader Unit :=
  modify fun s =>
    let rest := if text.isEmpty then s.rest else text ++ ' ' :: s.rest
    { s with rest := rest, replaced := (name, s.rest.length) :: s.replaced }

/-- The next token as the outlook sees it, behind at most `fuel` line feeds and aliases. -/
def tokenUpTo (look : Outlook) : (fuel : Nat) → Reader Token
  | 0 => nextToken nested false
  | fuel + 1 => do
    match ← nextToken nested false with
    | .newline =>
      if look.newlines then
        readDocuments nested
        tokenUpTo look fuel
      else return .newline
    | .word w =>
      match if look.keywords then Token.keyword? w else none with
      | some k => return .keyword k
      | none =>
        let s ← get
        match if look.aliases then alias? s w else none with
        | some (name, text) =>
          replaceAlias name text
          tokenUpTo look fuel
        | none => return .word w
    | t => return t

/-- The next token as the outlook sees it. -/
def token (look : Outlook) : Reader Token := do
  let s ← get
  tokenUpTo nested look (s.rest.length + s.aliases.length + 2)

/-- A keyword in quotes is a word like any other. -/
theorem keyword?_quoted (s : List Char) : Token.keyword? [.mark, .text s true] = none := rfl

/-! ### Redirections -/

/-- The stream that a word copies, where it tells one. -/
def copied (number : Nat) (w : Word) : Redirect :=
  match bare? w with
  | some ['-'] => .copy number none
  | some [c] => if c.isDigit then .copy number (some (c.toNat - '0'.toNat)) else .copyWord number w
  | _ => .copyWord number w

/-- The word that must follow a redirection. -/
def redirectWord (bare : Bool) : Reader Word := do
  match ← nextToken nested bare with
  | .word w => return w
  | t => unexpected t none

/-- The characters of a word without its quotes. -/
def unquoted (w : Word) : List Char :=
  w.flatMap fun p => match p with
    | .text s _ => s
    | _ => []

/-- The redirection that a token begins, if it begins one. -/
def redirect? (t : Token) : Reader (Option Redirect) := do
  match t with
  | .file n d => return some (.file n d (← redirectWord nested false))
  | .copy n => return some (copied n (← redirectWord nested false))
  | .document n stripped =>
    let w ← redirectWord nested true
    let s ← get
    let index := s.documents.size
    let a : Awaited := ⟨index, unquoted w, stripped, (bare? w).isSome⟩
    set { s with documents := s.documents.push [], awaited := s.awaited ++ [a] }
    return some (.document n index)
  | _ => return none

/-- The redirections that follow, at most `fuel` of them. -/
def redirectsUpTo (look : Outlook) : (fuel : Nat) → Reader (List Redirect)
  | 0 => return []
  | fuel + 1 => do
    let t ← token nested look
    match ← redirect? nested t with
    | some r => return r :: (← redirectsUpTo {} fuel)
    | none =>
      push t
      return []

/-- The redirections behind a command. -/
def redirects : Reader (List Redirect) := do
  redirectsUpTo nested .command ((← get).rest.length + 1)

/-! ### Commands -/

/-- Requires a token that shows as a text. -/
def require (look : Outlook) (shown : String) : Reader Unit := do
  let t ← token nested look
  if t.shown = shown then return () else unexpected t (some shown)

/-- What has been read of a simple command, the last of each first. -/
structure Gathered where
  assigned : List Word := []
  words : List Word := []
  redirects : List Redirect := []

/-- A command that is not waited for. -/
def inBackground : Command → Command
  | .pipe members _ => .pipe members true
  | .redirected line body redirects => .behind line body redirects
  | c => .behind 0 c []

/-- A command and what follows it. -/
def followed (a : Option Command) (b : Command) : Command :=
  match a with
  | some a => .follow a b
  | none => b

/-- A command with redirections of its own. -/
def withRedirects (line : Nat) (c : Command) (rs : List Redirect) : Command :=
  match c, rs with
  | c, [] => c
  | .apart line body _, rs => .apart line body rs
  | c, rs => .redirected line c rs

/-- Words up to the end of a line, at most `fuel` of them, and the token behind them. -/
def wordsUpTo : (fuel : Nat) → Reader (List Word × Token)
  | 0 => return ([], .ended)
  | fuel + 1 => do
    match ← token nested {} with
    | .word w =>
      let (ws, t) ← wordsUpTo fuel
      return (w :: ws, t)
    | t => return ([], t)

/-- The words that a loop runs through: those behind `in`, else all arguments. -/
def loopWords : Reader (List Word) := do
  match ← token nested .later with
  | .keyword "in" =>
    let (ws, t) ← wordsUpTo nested ((← get).rest.length + 1)
    match t with
    | .newline => return ws
    | .sign ";" => return ws
    | t => unexpected t none
  | .sign ";" => return [[.parameter ['@'] .value true]]
  | t =>
    push t
    return [[.parameter ['@'] .value true]]

/-- The patterns of a case, the first of which a token is, at most `fuel` of them. -/
def patternsFrom (t : Token) : (fuel : Nat) → Reader (List Word)
  | 0 => unexpected t none
  | fuel + 1 => do
    let w : Word := match t with
      | .word w => w
      | .keyword k => [.text k.toList false]
      | _ => []
    match ← token nested {} with
    | .sign "|" => return w :: (← patternsFrom (← token nested {}) fuel)
    | .sign ")" => return [w]
    | t => unexpected t (some "\")\"")

/-- How a list of commands may end: with the line, before a closing token, or at once before one. -/
inductive Extent where
  | line
  | block
  | perhapsEmpty
  deriving DecidableEq, Repr

mutual

/-- A list of commands behind those that have been read. -/
def commands (extent : Extent) (done : Option Command) :
    (fuel : Nat) → Reader (Option Command)
  | 0 => fault .openQuote
  | fuel + 1 => do
    match ← token nested (if extent = .line then .command else .later) with
    | .newline =>
      readDocuments nested
      return done
    | .ended =>
      readDocuments nested
      push .ended
      return done
    | t =>
      push t
      if t.endsList ∧ (extent = .perhapsEmpty ∨ extent = .block ∧ done.isSome) then return done
      let c ← chain fuel
      match ← token nested {} with
      | .sign "&" => commands extent (some (followed done (inBackground c))) fuel
      | .sign ";" => commands extent (some (followed done c)) fuel
      | .newline =>
        push .newline
        commands extent (some (followed done c)) fuel
      | .ended =>
        push .ended
        commands extent (some (followed done c)) fuel
      | t =>
        if extent = .line then unexpected t none
        else
          push t
          return some (followed done c)

/-- Commands joined by conditions. -/
def chain (fuel : Nat) : Reader Command :=
  match fuel with
  | 0 => fault .openQuote
  | fuel + 1 => do chainFrom (← pipeline {} fuel) fuel

/-- Commands joined by conditions to one that has been read. -/
def chainFrom (a : Command) : (fuel : Nat) → Reader Command
  | 0 => fault .openQuote
  | fuel + 1 => do
    match ← token nested {} with
    | .sign "&&" => chainFrom (.both a (← pipeline .later fuel)) fuel
    | .sign "||" => chainFrom (.either a (← pipeline .later fuel)) fuel
    | t =>
      push t
      return a

/-- Commands joined by pipes. -/
def pipeline (look : Outlook) : (fuel : Nat) → Reader Command
  | 0 => fault .openQuote
  | fuel + 1 => do
    match ← token nested look with
    | .keyword "!" => return .negate (← members .command fuel)
    | t =>
      push t
      members {} fuel

/-- The members of a pipe, or the one command that is there. -/
def members (look : Outlook) : (fuel : Nat) → Reader Command
  | 0 => fault .openQuote
  | fuel + 1 => do
    let c ← command look fuel
    match ← moreMembers fuel with
    | [] => return c
    | cs => return .pipe (c :: cs) false

/-- The members of a pipe behind the first one. -/
def moreMembers : (fuel : Nat) → Reader (List Command)
  | 0 => fault .openQuote
  | fuel + 1 => do
    match ← token nested {} with
    | .sign "|" =>
      let c ← command .later fuel
      return c :: (← moreMembers fuel)
    | t =>
      push t
      return []

/-- A list of commands that is not empty. -/
def block (fuel : Nat) : Reader Command :=
  match fuel with
  | 0 => fault .openQuote
  | fuel + 1 => do return (← commands .block none fuel).getD default

/-- The rest of a choice, behind the word that begins it, without the word that ends it. -/
def choice (fuel : Nat) : Reader Command :=
  match fuel with
  | 0 => fault .openQuote
  | fuel + 1 => do
    let condition ← block fuel
    require nested {} "\"then\""
    let yes ← block fuel
    match ← token nested {} with
    | .keyword "elif" => return .choose condition yes (some (← choice fuel))
    | .keyword "else" => return .choose condition yes (some (← block fuel))
    | t =>
      push t
      return .choose condition yes none

/-- The cases up to the word that ends them. -/
def caseList : (fuel : Nat) → Reader (List (List Word × Option Command))
  | 0 => fault .openQuote
  | fuel + 1 => do
    match ← token nested { newlines := true, keywords := true } with
    | .keyword "esac" => return []
    | t =>
      let first ← match t with
        | .sign "(" => token nested {}
        | t => pure t
      let patterns ← patternsFrom nested first ((← get).rest.length + 1)
      let body ← commands .perhapsEmpty none fuel
      match ← token nested { newlines := true, keywords := true } with
      | .keyword "esac" => return [(patterns, body)]
      | .sign ";;" => return (patterns, body) :: (← caseList fuel)
      | t => unexpected t (some "\";;\"")

/-- One command. -/
def command (look : Outlook) : (fuel : Nat) → Reader Command
  | 0 => fault .openQuote
  | fuel + 1 => do
    let line := (← get).line
    let close (c : Command) (ender : String) : Reader Command := do
      require nested {} ender
      return withRedirects line c (← redirects nested)
    match ← token nested look with
    | .keyword "if" => close (← choice fuel) "\"fi\""
    | .keyword "while" =>
      let condition ← block fuel
      require nested {} "\"do\""
      close (.loop true condition (← block fuel)) "\"done\""
    | .keyword "until" =>
      let condition ← block fuel
      require nested {} "\"do\""
      close (.loop false condition (← block fuel)) "\"done\""
    | .keyword "for" =>
      let name ← match ← token nested {} with
        | .word w => pure ((bare? w).filter isName)
        | _ => pure none
      match name with
      | none => fault .loopName
      | some name =>
        let words ← loopWords nested
        require nested .later "\"do\""
        close (.each line name words (← block fuel)) "\"done\""
    | .keyword "case" =>
      match ← token nested {} with
      | .word w =>
        require nested .later "\"in\""
        let cases ← caseList fuel
        return withRedirects line (.select line w cases) (← redirects nested)
      | t => unexpected t (some "word")
    | .keyword "\x7b" => close (← block fuel) "\"\x7d\""
    | .sign "(" => close (.apart line (some (← block fuel)) []) "\")\""
    | .sign s => unexpected (.sign s) none
    | .keyword k => unexpected (.keyword k) none
    | .newline => unexpected .newline none
    | .ended => unexpected .ended none
    | t =>
      push t
      simple (← get).line {} fuel

/-- The rest of a simple command, or a function that begins like one. -/
def simple (line : Nat) (g : Gathered) : (fuel : Nat) → Reader Command
  | 0 => fault .openQuote
  | fuel + 1 => do
    let done : Reader Command :=
      return .simple line g.assigned.reverse g.words.reverse g.redirects.reverse
    match ← token nested { aliases := g.words.isEmpty } with
    | .word w =>
      if g.words.isEmpty ∧ (assignment? w).isSome then
        simple line { g with assigned := w :: g.assigned } fuel
      else simple line { g with words := w :: g.words } fuel
    | .sign "(" =>
      match g with
      | ⟨[], [w], []⟩ =>
        require nested {} "\")\""
        match bare? w with
        | some name =>
          if isName name ∧ !specialNames.contains (String.ofList name) then
            return .define name (← command .later fuel)
          else fault .functionName
        | none => fault .functionName
      | _ =>
        push (.sign "(")
        done
    | t =>
      match ← redirect? nested t with
      | some r => simple line { g with redirects := r :: g.redirects } fuel
      | none =>
        push t
        done

end

end

/-- Commands between parentheses or backquotes, nested at most `depth` times. -/
def nestedCommands : (depth : Nat) → Reader (Option Command)
  | 0 => fault .openQuote
  | depth + 1 => do
    let n := (← get).rest.length
    commands (nestedCommands depth) .perhapsEmpty none (16 * n + 64)

/-- What a script says next. -/
inductive Reading where
  /-- Nothing, as it has ended. -/
  | ended
  /-- A line of commands, if it holds one, and whether the script ends behind it. -/
  | line (c : Option Command) (isLast : Bool)
  deriving Inhabited

/-- The next line of commands. -/
def readLine : Reader Reading := do
  modify fun s => { s with pushed := none, awaited := [] }
  let n := (← get).rest.length
  let c ← commands (nestedCommands (n + 1)) .line none (16 * n + 64)
  let isLast := (← get).pushed matches some .ended
  match c, isLast with
  | none, true => return .ended
  | c, isLast => return .line c isLast

end Conductor.Shell
