import Conductor.Shell.Process

/-!
# Conditions

What `test` finds out: conditions on texts, integers and files, joined by negation, conjunction and
disjunction. With few words their number decides what each of them is. Main statement: without words
there is no condition that holds.
-/

namespace Conductor.Shell

/-- What a word of a condition can be. -/
inductive Operator where
  | unary (s : String)
  | binary (s : String)
  | negation
  | conjunction
  | disjunction
  | opening
  | closing
  deriving DecidableEq, Repr

/-- A word of a condition as its place makes it. -/
inductive Lexeme where
  | ended
  | operand
  | operator (o : Operator)
  deriving DecidableEq, Repr

/-- The operators on one word. -/
def unaryOperators : List String :=
  ["-r", "-w", "-x", "-e", "-f", "-d", "-c", "-b", "-p", "-u", "-g", "-k", "-s", "-t", "-z", "-n",
    "-h", "-L", "-O", "-G", "-S"]

/-- The operators on two words. -/
def binaryOperators : List String :=
  ["=", "!=", "<", ">", "-eq", "-ne", "-ge", "-gt", "-le", "-lt", "-nt", "-ot", "-ef"]

/-- The operator that a word is, if it is one. -/
def operator? (word : List Char) : Option Operator :=
  let s := String.ofList word
  if unaryOperators.contains s then some (.unary s)
  else if binaryOperators.contains s then some (.binary s)
  else match s with
    | "!" => some .negation
    | "-a" => some .conjunction
    | "-o" => some .disjunction
    | "(" => some .opening
    | ")" => some .closing
    | _ => none

/-- Whether the first of some words, which looks like an operator on one word, has to be an operand
because of what follows. -/
def standsAlone : List (List Char) → Bool
  | [_] => true
  | _ :: next :: _ :: _ => (operator? next).any (· matches .binary _)
  | _ => false

/-- What the first of some words is. -/
def lexeme (words : List (List Char)) : Lexeme :=
  match words with
  | [] => .ended
  | w :: rest =>
    match operator? w with
    | some (.unary s) => if standsAlone words then .operand else .operator (.unary s)
    | some .opening => if rest.isEmpty then .operand else .operator .opening
    | some o => .operator o
    | none => .operand

/-- Files are asked for by this. -/
structure FileFacts where
  /-- Whether the operator on one word holds of a path. -/
  holds : String → List Char → Bool
  /-- When the file of a path was written. -/
  modified : List Char → Option Int
  /-- Whether two paths lead to the same place. -/
  same : List Char → List Char → Bool

section
variable (files : FileFacts)

/-- The integer that a word writes. -/
def operandNumber (s : List Char) : Except (List Char) Int :=
  match integer? (some 10) s with
  | some n => .ok n
  | none => .error ("Illegal number: ".toList ++ s)

/-- Whether an operator on two words holds. -/
def holdsBoth (op : String) (a b : List Char) : Except (List Char) Bool :=
  let numbers (f : Int → Int → Bool) : Except (List Char) Bool := do
    return f (← operandNumber a) (← operandNumber b)
  match op with
  | "=" => .ok (a == b)
  | "!=" => .ok (a != b)
  | "<" => .ok (decide (a < b))
  | ">" => .ok (decide (b < a))
  | "-eq" => numbers (· == ·)
  | "-ne" => numbers (· != ·)
  | "-ge" => numbers fun x y => y ≤ x
  | "-gt" => numbers fun x y => y < x
  | "-le" => numbers fun x y => x ≤ y
  | "-lt" => numbers fun x y => x < y
  | "-nt" =>
    .ok (match files.modified a, files.modified b with
      | some x, some y => y < x
      | _, _ => false)
  | "-ot" =>
    .ok (match files.modified a, files.modified b with
      | some x, some y => x < y
      | _, _ => false)
  | _ => .ok (files.same a b)

/-- Whether an operator on one word holds. -/
def holdsOne (op : String) (a : List Char) : Bool :=
  match op with
  | "-z" => a.isEmpty
  | "-n" => !a.isEmpty
  | op => files.holds op a

mutual

/-- Whether one of some conditions holds, and the words from the last one that was used; `l` is what
the first word is. -/
def anyOf (l : Lexeme) (words : List (List Char)) :
    (fuel : Nat) → Except (List Char) (Bool × List (List Char))
  | 0 => .ok (false, words)
  | fuel + 1 => do
    let (a, words) ← allOf l words fuel
    if lexeme words.tail = .operator .disjunction then
      let words := words.drop 2
      let (b, words) ← anyOf (lexeme words) words fuel
      return (a || b, words)
    else return (a, words)

/-- Whether all of some conditions hold. -/
def allOf (l : Lexeme) (words : List (List Char)) :
    (fuel : Nat) → Except (List Char) (Bool × List (List Char))
  | 0 => .ok (false, words)
  | fuel + 1 => do
    let (a, words) ← notOf l words fuel
    if lexeme words.tail = .operator .conjunction then
      let words := words.drop 2
      let (b, words) ← allOf (lexeme words) words fuel
      return (a && b, words)
    else return (a, words)

/-- Whether a condition holds that may be negated. -/
def notOf (l : Lexeme) (words : List (List Char)) :
    (fuel : Nat) → Except (List Char) (Bool × List (List Char))
  | 0 => .ok (false, words)
  | fuel + 1 => do
    if l = .operator .negation then
      let next := lexeme words.tail
      let (a, words) ← notOf next (if next = .ended then words else words.tail) fuel
      return (!a, words)
    else single l words fuel

/-- Whether a single condition holds. -/
def single (l : Lexeme) (words : List (List Char)) :
    (fuel : Nat) → Except (List Char) (Bool × List (List Char))
  | 0 => .ok (false, words)
  | fuel + 1 =>
    match l with
    | .ended => .ok (false, words)
    | .operator .opening =>
      let inner := words.tail
      if lexeme inner = .operator .closing then .ok (false, inner)
      else do
        let (a, words) ← anyOf (lexeme inner) inner fuel
        if lexeme words.tail = .operator .closing then return (a, words.tail)
        else throw "closing paren expected".toList
    | .operator (.unary op) =>
      match words.tail with
      | [] => .error (op.toList ++ ": argument expected".toList)
      | a :: rest => .ok (holdsOne files op a, a :: rest)
    | _ =>
      match words, lexeme words.tail with
      | a :: _ :: rest, .operator (.binary op) =>
        match rest with
        | [] => .error (op.toList ++ ": argument expected".toList)
        | b :: more => do return (← holdsBoth files op a b, b :: more)
      | a :: rest, _ => .ok (!a.isEmpty, a :: rest)
      | [], _ => .ok (false, [])

end

/-- Whether the condition that words write holds, where the first word is what `l` says. -/
def conditionFrom (l : Lexeme) (words : List (List Char)) : Except (List Char) Bool := do
  let (a, rest) ← anyOf files l words (8 * words.length + 8)
  match rest with
  | w :: _ :: _ =>
    throw (if w.isEmpty then "unexpected operator".toList
      else w ++ ": unexpected operator".toList)
  | _ => return a

/-- Whether the condition that words write holds. -/
def condition : List (List Char) → Except (List Char) Bool
  | [] => .ok false
  | words@(w :: rest) =>
    let isBinary : Bool := match words with
      | [_, op, _] => (operator? op).any (· matches .binary _)
      | _ => false
    if isBinary then conditionFrom files .operand words
    else if words.length = 3 ∨ words.length = 4 then
      if w = ['('] ∧ words.getLast? = some [')'] then
        conditionFrom files (lexeme rest.dropLast) rest.dropLast
      else if w = ['!'] then (condition rest).map (!·)
      else conditionFrom files (lexeme words) words
    else conditionFrom files (lexeme words) words

/-- Without words there is no condition that holds. -/
theorem condition_nil : condition files [] = .ok false := rfl

end

end Conductor.Shell
