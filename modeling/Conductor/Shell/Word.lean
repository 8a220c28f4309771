import Conductor.Shell.Source

/-!
# Reading words

A word is read up to a blank or an operator; what quotes, braces and parentheses enclose belongs to
it. Where a word stands decides what its characters mean. Commands between parentheses or backquotes
are read by a reader that is given. Main statement: outside quotes and braces, only a blank or an
operator ends a word.
-/

namespace Conductor.Shell

open Reader

/-- Where the characters of a word stand. -/
inductive Setting where
  | plain
  /-- Between unquoted braces. -/
  | braces
  /-- Between double quotes; they may stand between braces. -/
  | quotes (inBraces : Bool)
  /-- Between quoted braces; a quote may be open there. -/
  | quotedBraces (openQuote : Bool)
  /-- In an expression, with parentheses open in it. -/
  | sum (depth : Nat)
  /-- In a line of a document. -/
  | line
  deriving DecidableEq, Repr, Inhabited

namespace Setting

/-- Whether characters are quoted. -/
def isQuoted : Setting → Bool
  | plain => false
  | braces => false
  | _ => true

/-- The setting between the braces of a parameter. -/
def inner (s : Setting) : Setting := if s.isQuoted then quotedBraces false else braces

/-- Whether a backslash in front of a character stays; it does where the character needs none. -/
def keepsBackslash (s : Setting) (c : Char) : Bool :=
  s.isQuoted && !(['\\', '\x60', '$'].contains c)
    && (c != '"' || s == line)
    && (c != '\x7d' || !(s matches quotes true || s matches quotedBraces _))

/-- What is wrong where a text ends in this setting, if it may not; in a document, quotes do not
count. -/
def cutOff? (s : Setting) (inDocument : Bool) : Option SyntaxCause :=
  match s with
  | plain => none
  | line => none
  | braces => some .openBrace
  | quotes _ => some (if inDocument then .openBrace else .openQuote)
  | quotedBraces _ => some (if inDocument then .openBrace else .openQuote)
  | sum _ => some .openSum

/-- Whether a word ends in front of a character. -/
def stopsAt (s : Setting) (c : Char) : Bool := s == plain && endsWord c

/-- Outside quotes and braces, only a blank or an operator ends a word. -/
theorem stopsAt_iff (s : Setting) (c : Char) :
    s.stopsAt c = true ↔ s = plain ∧ endsWord c = true := by
  simp [stopsAt]

end Setting

/-- The word for all arguments, each a field of its own; it makes no field where there are none. -/
def isAllArguments : Word → Bool
  | [.parameter ['@'] .value true] => true
  | _ => false

/-- The text up to the next single quote. -/
def singleQuoted : Reader (List Char) := do
  let s ← get
  let text := s.rest.takeWhile (· ≠ '\'')
  let line := s.line + text.count '\n'
  match s.rest.drop text.length with
  | _ :: rest =>
    set { s with rest := rest, line := line }
    return text
  | [] => throw ⟨.openQuote, line⟩

/-- The text up to the next backquote, without the backslashes that quote in it. -/
def backquoted (quoted : Bool) : (fuel : Nat) → Reader (List Char)
  | 0 => fault .openBackquote
  | fuel + 1 => do
    let next ← peek
    advance
    match next with
    | none => fault .openBackquote
    | some '\x60' => return []
    | some '\\' =>
      let next ← peekRaw
      advance
      match next with
      | none => fault .openBackquote
      | some c =>
        let escaped := ['\\', '\x60', '$'].contains c || quoted && c == '"'
        let rest ← backquoted quoted fuel
        return if escaped then c :: rest else '\\' :: c :: rest
    | some c => return c :: (← backquoted quoted fuel)

/-- How often the next characters repeat a character that has just been read: whether once more. -/
def doubled (c : Char) : Reader Bool := skip c

/-- The absence that a sign between the braces of a parameter stands for. -/
def absence? : Char → Option Absence
  | '-' => some .default
  | '=' => some .assign
  | '?' => some .complain
  | '+' => some .alternative
  | _ => none

/-- How the braces of a parameter go on behind its name. -/
inductive Continuation where
  | ended
  | length
  | absent (how : Absence) (orEmpty : Bool)
  | trim (atEnd longest : Bool)
  | followed
  | unknown
  deriving DecidableEq, Repr, Inhabited

/-- What follows the name of a parameter between braces. -/
def afterName : Reader Continuation := do
  let next ← peek
  pass
  match next with
  | some '\x7d' => return .ended
  | some '%' => return .trim true (← doubled '%')
  | some '#' => return .trim false (← doubled '#')
  | some ':' =>
    let next ← peek
    pass
    if next = some '\x7d' then return .followed
    else return ((next.bind absence?).map (.absent · true)).getD .unknown
  | some c => return ((absence? c).map (.absent · false)).getD .unknown
  | none => return .unknown

/-- The name of a parameter between braces, and how they go on. A number sign in front of a name
asks for a length. -/
def parameterHead : Reader (List Char × Continuation) := do
  match ← peek with
  | none => return ([], .unknown)
  | some '\x7d' => return ([], .unknown)
  | some '#' =>
    advance
    match ← peek with
    | none => return (['#'], ← afterName)
    | some c =>
      if isNameStart c then
        let name ← span isNameChar
        return (name, if (← peek) = some '\x7d' then .length else .unknown)
      else if c.isDigit then
        advance
        return ([c], if (← peek) = some '\x7d' then .length else .unknown)
      else
        let before ← get
        advance
        if c ≠ '\x7d' ∧ (← peek) = some '\x7d' then
          return ([c], if isSpecial c then .length else .unknown)
        else
          set before
          return (['#'], ← afterName)
  | some c =>
    if isNameStart c then
      let name ← span isNameChar
      return (name, ← afterName)
    else if c.isDigit then
      let name ← span Char.isDigit
      return (name, ← afterName)
    else
      pass
      if isSpecial c then return ([c], ← afterName) else return ([c], .unknown)

/-- Drops tabs at the beginning of a line of a document where it asks for that. -/
def dropTabs (a : Awaited) : Reader Unit :=
  if a.stripped then modify fun s => { s with rest := s.rest.dropWhile (· == '\t') }
  else return ()

/-- Whether a document ends with the next line, which is dropped then, or with the script. -/
def documentEnds (a : Awaited) : Reader Bool := do
  dropTabs a
  let s ← get
  if s.rest.isEmpty then return true
  else if s.rest.takeWhile (· ≠ '\n') = a.ender then
    set { s with rest := s.rest.drop (a.ender.length + 1), line := s.line + 1 }
    return true
  else return false

/-- Goes on behind a line feed; in a document that ends there, something has not been closed. -/
def beginLine (setting : Setting) : Reader Unit := do
  match (← get).document with
  | some a =>
    if ← documentEnds a then
      match setting.cutOff? true with
      | some cause => fault cause
      | none => return ()
  | none => return ()

section
variable (nested : Reader (Option Command))

/-- The command between parentheses that have been opened. -/
def parenthesized : Reader (Option Command) := do
  let before ← get
  -- Documents that are asked for inside end inside.
  set { before with awaited := [], pushed := none, document := none }
  let c ← nested
  match (← get).pushed with
  | some (.sign ")") =>
    modify fun s =>
      { s with pushed := none, awaited := before.awaited, document := before.document }
  | some t => unexpected t (some "\")\"")
  | none => unexpected .ended (some "\")\"")
  return c

mutual

/-- The parts of a word up to the end of its setting; `bare` says that nothing is expanded, and
`done` are the parts so far, the last one first. -/
def partsOf (bare : Bool) (setting : Setting) (done : List Part) :
    (fuel : Nat) → Reader (List Part)
  | 0 => fault .openQuote
  | fuel + 1 => do
    let add (p : Part) : Reader (List Part) := partsOf bare setting (p :: done) fuel
    let literal (c : Char) : Reader (List Part) := do
      advance
      add (.text [c] setting.isQuoted)
    match ← peek with
    | none =>
      match setting.cutOff? (← get).document.isSome with
      | some cause => fault cause
      | none => return done.reverse
    | some c =>
      if setting.stopsAt c then return done.reverse
      else match c, setting with
      | '\n', .line =>
        advance
        return (.text ['\n'] true :: done).reverse
      | '\n', _ =>
        advance
        beginLine setting
        add (.text ['\n'] setting.isQuoted)
      | '\\', _ =>
        advance
        match ← peekRaw with
        | none => add (.text ['\\'] true)
        | some c =>
          advance
          add (.text (if setting.keepsBackslash c then ['\\', c] else [c]) true)
      | '\'', .plain =>
        advance
        partsOf bare setting (.text (← singleQuoted) true :: .mark :: done) fuel
      | '\'', .braces =>
        advance
        partsOf bare setting (.text (← singleQuoted) true :: .mark :: done) fuel
      | '"', .quotes _ =>
        advance
        return done.reverse
      | '"', .quotedBraces isOpen =>
        advance
        partsOf bare (.quotedBraces !isOpen) (.mark :: done) fuel
      | '"', .plain =>
        advance
        let inner ← partsOf bare (.quotes false) [] fuel
        let marked := if isAllArguments inner then inner else .mark :: inner
        partsOf bare setting (marked.reverse ++ done) fuel
      | '"', .braces =>
        advance
        let inner ← partsOf bare (.quotes true) [] fuel
        let marked := if isAllArguments inner then inner else .mark :: inner
        partsOf bare setting (marked.reverse ++ done) fuel
      | '\x7d', .braces =>
        advance
        return done.reverse
      | '\x7d', .quotedBraces false =>
        advance
        return done.reverse
      | '(', .sum depth =>
        advance
        partsOf bare (.sum (depth + 1)) (.text ['('] true :: done) fuel
      | ')', .sum (depth + 1) =>
        advance
        partsOf bare (.sum depth) (.text [')'] true :: done) fuel
      | ')', .sum 0 =>
        advance
        if ← skip ')' then return done.reverse else add (.text [')'] true)
      | '$', _ =>
        if bare then literal '$'
        else
          advance
          add (← afterDollar setting fuel)
      | '\x60', _ =>
        if bare then literal '\x60'
        else
          advance
          let text ← backquoted setting.isQuoted ((← get).rest.length + 1)
          add (.output (← within text nested) setting.isQuoted)
      | c, _ => literal c

/-- The part that a dollar sign begins. -/
def afterDollar (setting : Setting) : (fuel : Nat) → Reader Part
  | 0 => fault .openQuote
  | fuel + 1 => do
    let quoted := setting.isQuoted
    match ← peek with
    | some '(' =>
      advance
      if ← skip '(' then return .sum (joinTexts (← partsOf false (.sum 0) [] fuel)) quoted
      else return .output (← parenthesized nested) quoted
    | some '\x7b' =>
      advance
      let (name, continuation) ← parameterHead
      let word (s : Setting) : Reader Word := return joinTexts (← partsOf false s [] fuel)
      match continuation with
      | .ended => return .parameter name .value quoted
      | .length =>
        let _ ← word setting.inner
        return .parameter name .length quoted
      | .absent how orEmpty =>
        return .parameter name (.absent how orEmpty (← word setting.inner)) quoted
      | .trim atEnd longest =>
        return .parameter name (.trim atEnd longest (← word .braces)) quoted
      | .followed => return .parameter name (.followed (← word setting.inner)) quoted
      | .unknown =>
        let _ ← word setting.inner
        return .parameter name .unknown quoted
    | some c =>
      if isNameStart c then return .parameter (← span isNameChar) .value quoted
      else if isSpecial c then
        advance
        return .parameter [c] .value quoted
      else return .text ['$'] quoted
    | none => return .text ['$'] quoted

end

/-- Enough fuel to read the parts of any word that is left. -/
def wordFuel : Reader Nat := return 2 * (← get).rest.length + 4

/-- The next word; in a bare one nothing is expanded. -/
def wordOf (bare : Bool) : Reader Word := do
  return joinTexts (← partsOf nested bare .plain [] (← wordFuel))

/-- A line of a document. -/
def documentLine (a : Awaited) : Reader (List Part) := do
  if a.expanded then
    modify fun s => { s with document := some a }
    let parts ← partsOf nested false .line [] (← wordFuel)
    modify fun s => { s with document := none }
    return parts
  else
    let text := (← get).rest.takeWhile (· ≠ '\n')
    modify fun s => { s with rest := s.rest.drop text.length }
    let ended := (← peekRaw).isNone
    advance
    return [.text (if ended then text else text ++ ['\n']) true]

/-- The lines of a document, of which at most `fuel` are read. -/
def documentLines (a : Awaited) : (fuel : Nat) → Reader (List Part)
  | 0 => return []
  | fuel + 1 => do
    if ← documentEnds a then return []
    else return (← documentLine nested a) ++ (← documentLines a fuel)

/-- Reads the documents that are awaited. -/
def readDocuments : Reader Unit := do
  let awaited := (← get).awaited
  modify fun s => { s with awaited := [] }
  for a in awaited do
    let text := joinTexts (← documentLines nested a ((← get).rest.length + 1))
    modify fun s => { s with documents := s.documents.setIfInBounds a.index text }

end

end Conductor.Shell
