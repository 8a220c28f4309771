import Conductor.Shell.Numeral

/-!
# Expressions of a shell script

The value of an arithmetic expression on 64-bit integers: variables, assignments, choices and the
operators by their strength. What is not needed for the value is read but not evaluated. Main
statement: a sum wraps around where it does not fit.
-/

namespace Conductor.Shell

/-- A token of an expression. -/
inductive SumToken where
  | number (n : Int64)
  | name (s : List Char)
  | sign (s : String)
  | unknown
  deriving DecidableEq, Repr, Inhabited

/-- What is wrong with an expression. -/
inductive SumFault where
  | primaryExpected
  | endExpected
  | colonExpected
  | closeExpected
  | divisionByZero
  | divideError
  | number (text : List Char)
  | readOnly (name : List Char)
  deriving DecidableEq, Repr, Inhabited

/-- What is wrong with the expression that a text writes. -/
def SumFault.message (text : List Char) : SumFault → List Char
  | number n => "Illegal number: ".toList ++ n
  | readOnly name => name ++ ": is read only".toList
  | fault =>
    let cause := match fault with
      | endExpected => "expecting EOF"
      | colonExpected => "expecting ':'"
      | closeExpected => "expecting ')'"
      | divisionByZero => "division by zero"
      | divideError => "divide error"
      | _ => "expecting primary"
    s!"arithmetic expression: {cause}: \"".toList ++ text ++ ['"']

/-- The signs, each in front of those that it begins with. -/
def sumSigns : List String :=
  ["<<=", ">>=", "<<", ">>", "<=", ">=", "<", ">", "==", "=", "!=", "!", "&&", "&=", "&", "||",
    "|=", "|", "*=", "*", "/=", "/", "%=", "%", "+=", "+", "-=", "-", "~", "^=", "^", "?", ":", "(",
    ")"]

/-- The tokens of an expression, of which at most `fuel` are read. -/
def sumTokensUpTo : (fuel : Nat) → List Char → List SumToken
  | 0, _ => []
  | _, [] => []
  | fuel + 1, c :: s =>
    if isBlank c then sumTokensUpTo fuel s
    else if c.isDigit then
      let n := numeral none (c :: s)
      .number (Int64.ofInt n.value) :: sumTokensUpTo fuel n.rest
    else if isNameStart c then
      .name ((c :: s).takeWhile isNameChar) :: sumTokensUpTo fuel ((c :: s).dropWhile isNameChar)
    else match sumSigns.find? fun g => g.toList.isPrefixOf (c :: s) with
      | some g => .sign g :: sumTokensUpTo fuel ((c :: s).drop g.length)
      | none => .unknown :: sumTokensUpTo fuel s

/-- The strength of a binary operator, zero being the strongest. -/
def strength? : String → Option Nat
  | "*" => some 0
  | "/" => some 0
  | "%" => some 0
  | "+" => some 1
  | "-" => some 1
  | "<<" => some 2
  | ">>" => some 2
  | "<" => some 3
  | ">" => some 3
  | "<=" => some 3
  | ">=" => some 3
  | "==" => some 4
  | "!=" => some 4
  | "&" => some 5
  | "^" => some 6
  | "|" => some 7
  | _ => none

/-- A strength that no operator has. -/
def weakest : Nat := 8

/-- The integer of a truth value. -/
def truth (b : Bool) : Int64 := if b then 1 else 0

/-- The value of an operator. -/
def combine (op : String) (a b : Int64) : Except SumFault Int64 :=
  let divisible : Except SumFault Unit :=
    if b = 0 then .error .divisionByZero
    else if a = Int64.minValue ∧ b = -1 then .error .divideError
    else .ok ()
  match op with
  | "*" => .ok (a * b)
  | "/" => divisible.map fun _ => a / b
  | "%" => divisible.map fun _ => a % b
  | "+" => .ok (a + b)
  | "-" => .ok (a - b)
  | "<<" => .ok (a <<< b)
  | ">>" => .ok (a >>> b)
  | "<" => .ok (truth (a < b))
  | ">" => .ok (truth (b < a))
  | "<=" => .ok (truth (a ≤ b))
  | ">=" => .ok (truth (b ≤ a))
  | "==" => .ok (truth (a == b))
  | "!=" => .ok (truth (a != b))
  | "&" => .ok (a &&& b)
  | "^" => .ok (a ^^^ b)
  | _ => .ok (a ||| b)

/-- A sum wraps around where it does not fit. -/
theorem combine_add (a b : Int64) :
    (combine "+" a b).map Int64.toInt = .ok ((a.toInt + b.toInt).bmod (Nat.pow 2 64)) := by
  simp [combine, Except.map, Int64.toInt_add]

/-- The operator that an assignment applies first; none for a plain one. -/
def assignment : String → Option (Option String)
  | "=" => some none
  | "*=" => some (some "*")
  | "/=" => some (some "/")
  | "%=" => some (some "%")
  | "+=" => some (some "+")
  | "-=" => some (some "-")
  | "<<=" => some (some "<<")
  | ">>=" => some (some ">>")
  | "&=" => some (some "&")
  | "^=" => some (some "^")
  | "|=" => some (some "|")
  | _ => none

/-- The variables that an expression sees: their texts, and which of them cannot be set. -/
structure Scope where
  lookUp? : List Char → Option (List Char)
  isFixed : List Char → Bool

/-- What is left of an expression, and what it has set so far, the last first. -/
structure Reckoning where
  tokens : List SumToken
  changes : List (List Char × Int64) := []

/-- Evaluates an expression while reading it. -/
abbrev Sum := StateT Reckoning (Except SumFault)

namespace Sum

/-- The next sign, which stays. -/
def peekSign : Sum (Option String) := do
  match (← get).tokens with
  | .sign s :: _ => return some s
  | _ => return none

/-- Drops the next token. -/
def advance : Sum Unit := modify fun r => { r with tokens := r.tokens.tail }

/-- The value of a variable; one that is not set is zero. -/
def lookUp (scope : Scope) (name : List Char) : Sum Int64 := do
  match (← get).changes.find? (·.1 == name) with
  | some (_, n) => return n
  | none =>
    let text := (scope.lookUp? name).getD []
    match integer? none text with
    | some n => return Int64.ofInt n
    | none => throw (.number text)

/-- Sets a variable. -/
def assign (scope : Scope) (name : List Char) (value : Int64) : Sum Unit :=
  if scope.isFixed name then throw (.readOnly name)
  else modify fun r => { r with changes := (name, value) :: r.changes }

section
variable (scope : Scope)

mutual

/-- The value of an assignment or of an expression without one; `idle` says that it is not needed.
-/
def assigned (idle : Bool) : (fuel : Nat) → Sum Int64
  | 0 => throw .primaryExpected
  | fuel + 1 => do
    match (← get).tokens with
    | .name name :: .sign s :: rest =>
      match assignment s with
      | some op =>
        modify fun r => { r with tokens := rest }
        let value ← assigned idle fuel
        if idle then return value
        else
          let value ← match op with
            | none => pure value
            | some op => combine op (← lookUp scope name) value
          assign scope name value
          return value
      | none => choice idle fuel
    | _ => choice idle fuel

/-- The value of a choice. -/
def choice (idle : Bool) : (fuel : Nat) → Sum Int64
  | 0 => throw .primaryExpected
  | fuel + 1 => do
    let a ← disjunction idle fuel
    if (← peekSign) = some "?" then
      advance
      let b ← assigned (idle || a == 0) fuel
      if (← peekSign) ≠ some ":" then throw .colonExpected
      advance
      let c ← choice (idle || a != 0) fuel
      return if a = 0 then c else b
    else return a

/-- Whether one of two conditions holds. -/
def disjunction (idle : Bool) : (fuel : Nat) → Sum Int64
  | 0 => throw .primaryExpected
  | fuel + 1 => do
    let a ← conjunction idle fuel
    if (← peekSign) = some "||" then
      advance
      let b ← disjunction (idle || a != 0) fuel
      return truth (a != 0 || b != 0)
    else return a

/-- Whether both of two conditions hold. -/
def conjunction (idle : Bool) : (fuel : Nat) → Sum Int64
  | 0 => throw .primaryExpected
  | fuel + 1 => do
    let a ← joined weakest (← primary idle fuel) idle fuel
    if (← peekSign) = some "&&" then
      advance
      let b ← conjunction (idle || a == 0) fuel
      return truth (a != 0 && b != 0)
    else return a

/-- The value of an operand and the operators behind it that are stronger than a bound. -/
def joined (bound : Nat) (a : Int64) (idle : Bool) : (fuel : Nat) → Sum Int64
  | 0 => throw .primaryExpected
  | fuel + 1 => do
    match ← peekSign with
    | none => return a
    | some op =>
      match strength? op with
      | none => return a
      | some s =>
        if bound ≤ s then return a
        else
          advance
          let b ← joined s (← primary idle fuel) idle fuel
          joined bound (← if idle then pure b else combine op a b) idle fuel

/-- The value of an operand. -/
def primary (idle : Bool) : (fuel : Nat) → Sum Int64
  | 0 => throw .primaryExpected
  | fuel + 1 => do
    let token := (← get).tokens.head?
    advance
    match token with
    | some (.number n) => return n
    | some (.name name) => if idle then return 0 else lookUp scope name
    | some (.sign "(") =>
      let a ← assigned idle fuel
      if (← peekSign) ≠ some ")" then throw .closeExpected
      advance
      return a
    | some (.sign "+") => primary idle fuel
    | some (.sign "-") => return -(← primary idle fuel)
    | some (.sign "!") => return truth ((← primary idle fuel) == 0)
    | some (.sign "~") => return ~~~(← primary idle fuel)
    | _ => throw .primaryExpected

end

end

end Sum

/-- The value of the expression that a text writes, and what it sets, in order. -/
def evaluateSum (scope : Scope) (text : List Char) :
    Except SumFault (Int64 × List (List Char × Int64)) := do
  let tokens := sumTokensUpTo (text.length + 1) text
  let (n, r) ← (Sum.assigned scope false (8 * tokens.length + 8)).run { tokens := tokens }
  if r.tokens.isEmpty then return (n, r.changes.reverse) else throw .endExpected

end Conductor.Shell
