/-!
# Words of a command line

A command line is split into words at spaces, tabs and line ends. Quotes of both kinds keep blanks
together, and a backslash takes the next character as it is; between double quotes it does so only
before a double quote or a backslash. Main statement: a line of plain characters is one word.
-/

namespace Conductor.Command

/-- What makes a command line unreadable. -/
inductive WordFault where
  | openQuote
  | openEscape
  deriving DecidableEq, Repr

/-- What is wrong with the command line. -/
def WordFault.message : WordFault → String
  | openQuote => "No closing quotation"
  | openEscape => "No escaped character"

/-- A character that separates words. -/
def isSeparator (c : Char) : Bool := c == ' ' || c == '\t' || c == '\r' || c == '\n'

/-- A quote character. -/
def isQuoteMark (c : Char) : Bool := c == '\'' || c == '"'

/-- Where the splitting stands: between words, in a word, in quotes within a word, or after a
backslash, which may itself stand in double quotes. -/
inductive Place where
  | between
  | word
  | quotes (q : Char)
  | escape (inQuotes : Bool)
  deriving DecidableEq, Repr

/-- The words of the rest of a line; `word` is the word so far, last character first. -/
def split (place : Place) (word : List Char) : List Char → Except WordFault (List (List Char))
  | [] =>
    match place with
    | .between => .ok []
    | .word => .ok [word.reverse]
    | .quotes _ => .error .openQuote
    | .escape _ => .error .openEscape
  | c :: cs =>
    match place with
    | .between =>
      if isSeparator c then split .between [] cs
      else if c = '\\' then split (.escape false) [] cs
      else if isQuoteMark c then split (.quotes c) [] cs
      else split .word [c] cs
    | .word =>
      if isSeparator c then (split .between [] cs).map (word.reverse :: ·)
      else if c = '\\' then split (.escape false) word cs
      else if isQuoteMark c then split (.quotes c) word cs
      else split .word (c :: word) cs
    | .quotes q =>
      if c = q then split .word word cs
      else if c = '\\' && q = '"' then split (.escape true) word cs
      else split (.quotes q) (c :: word) cs
    | .escape false => split .word (c :: word) cs
    | .escape true =>
      if c = '"' || c = '\\' then split (.quotes '"') (c :: word) cs
      else split (.quotes '"') (c :: '\\' :: word) cs

/-- The words of a line. -/
def words (line : List Char) : Except WordFault (List (List Char)) := split .between [] line

/-- A character that stands for itself in a word. -/
def isPlain (c : Char) : Bool := !isSeparator c && c != '\\' && !isQuoteMark c

theorem split_word_of_plain {word s : List Char} (h : ∀ c ∈ s, isPlain c = true) :
    split .word word s = .ok [word.reverse ++ s] := by
  induction s generalizing word with
  | nil => simp [split]
  | cons c cs ih =>
    have hc := h c (List.mem_cons_self ..)
    simp only [isPlain, Bool.and_eq_true, Bool.not_eq_true', bne_iff_ne, ne_eq] at hc
    rw [split]
    simp [hc, ih fun d hd => h d (List.mem_cons_of_mem _ hd)]

end Conductor.Command
