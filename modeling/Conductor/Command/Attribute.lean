/-!
# Attributes

What the name of a field can lead to by way of its value's attributes: texts, their kinds, and the
operations on them, which have names but do nothing here. Main statement: a text is shown as it is.
-/

namespace Conductor.Command

/-- What a field's name can lead to. -/
inductive Thing where
  | text (s : List Char)
  | nothing
  /-- A kind of things. -/
  | kind (name : String)
  /-- Some kinds in a row. -/
  | kinds (names : List String)
  /-- An operation on the thing that owns it. -/
  | operation (name : String) (owner : Thing)
  /-- An operation behind a sign, on a text; `definer` is the kind that defines it. -/
  | sign (name definer : String) (owner : List Char)
  /-- An operation on all texts. -/
  | textOperation (name : String)
  /-- An operation behind a sign on all things of a kind. -/
  | signOf (name definer : String)
  deriving DecidableEq, Repr

/-- The operations on texts. -/
def textOperations : List String :=
  ["__format__", "__getnewargs__", "__sizeof__", "capitalize", "casefold", "center", "count",
    "encode", "endswith", "expandtabs", "find", "format", "format_map", "index", "isalnum",
    "isalpha", "isascii", "isdecimal", "isdigit", "isidentifier", "islower", "isnumeric",
    "isprintable", "isspace", "istitle", "isupper", "join", "ljust", "lower", "lstrip", "partition",
    "removeprefix", "removesuffix", "replace", "rfind", "rindex", "rjust", "rpartition", "rsplit",
    "rstrip", "split", "splitlines", "startswith", "strip", "swapcase", "title", "translate",
    "upper", "zfill"]

/-- The operations on all things that have no sign. -/
def commonOperations : List String := ["__dir__", "__getstate__", "__reduce__", "__reduce_ex__"]

/-- The operations on texts behind signs. -/
def textSigns : List String :=
  ["__add__", "__contains__", "__eq__", "__ge__", "__getattribute__", "__getitem__", "__gt__",
    "__hash__", "__iter__", "__le__", "__len__", "__lt__", "__mod__", "__mul__", "__ne__",
    "__repr__", "__rmod__", "__rmul__", "__str__"]

/-- The operations on all things behind signs. -/
def commonSigns : List String := ["__delattr__", "__init__", "__setattr__"]

/-- The operations on a kind itself. -/
def kindOperations : List String := ["__init_subclass__", "__new__", "__subclasshook__"]

/-- What texts say about themselves. -/
def textDescription : String :=
  "str(object='') -> str\nstr(bytes_or_buffer[, encoding[, errors]]) -> str\n\n" ++
  "Create a new string object from the given object. If encoding or\n" ++
  "errors is specified, then the object must expose a data buffer\n" ++
  "that will be decoded using the given encoding and error handler.\n" ++
  "Otherwise, returns the result of object.__str__() (if defined)\nor repr(object).\n" ++
  "encoding defaults to sys.getdefaultencoding().\nerrors defaults to 'strict'."

namespace Thing

/-- A text. -/
def ofString (s : String) : Thing := .text s.toList

/-- The name of the kind that a thing is of. -/
def kindName : Thing → String
  | .text _ => "str"
  | .nothing => "NoneType"
  | .kind _ => "type"
  | .kinds _ => "tuple"
  | .operation .. => "builtin_function_or_method"
  | .sign .. => "method-wrapper"
  | .textOperation _ => "method_descriptor"
  | .signOf .. => "wrapper_descriptor"

/-- How a thing is called when an attribute of it is missing. -/
def holder : Thing → String
  | .kind name => s!"type object '{name}'"
  | t => s!"'{t.kindName}' object"

/-- How a thing is called when it has no items. -/
def itemHolder : Thing → String
  | .kind name => s!"type '{name}'"
  | t => t.holder

/-- How a kind is shown. -/
def shownKind (name : String) : String := s!"<class '{name}'>"

/-- How a thing is shown. An operation tells where its owner lies in memory, which is made up. -/
def shown : Thing → List Char
  | .text s => s
  | .nothing => "None".toList
  | .kind name => (shownKind name).toList
  | .kinds [name] => s!"({shownKind name},)".toList
  | .kinds names => ("(" ++ ", ".intercalate (names.map shownKind) ++ ")").toList
  | .operation name (.text _) => s!"<built-in method {name} of str object at 0x7f0000000000>".toList
  | .operation name _ => s!"<built-in method {name} of type object at 0x7f0000000000>".toList
  | .sign name _ _ => s!"<method-wrapper '{name}' of str object at 0x7f0000000000>".toList
  | .textOperation name => s!"<method '{name}' of 'str' objects>".toList
  | .signOf name definer => s!"<slot wrapper '{name}' of '{definer}' objects>".toList

/-- The kind that defines an operation behind a sign on texts. -/
def signDefiner? (name : String) : Option String :=
  if textSigns.contains name then some "str"
  else if commonSigns.contains name then some "object"
  else none

/-- An attribute of a text. -/
def textAttribute? (s : List Char) (name : String) : Option Thing :=
  if name = "__doc__" then some (ofString textDescription)
  else if textOperations.contains name || commonOperations.contains name then
    some (.operation name (.text s))
  else if kindOperations.contains name then some (.operation name (.kind "str"))
  else if name = "maketrans" then some (.operation name .nothing)
  else (signDefiner? name).map fun definer => .sign name definer s

/-- The kinds above a kind. -/
def above (name : String) : List String := if name = "object" then [] else ["object"]

/-- An attribute of a kind. -/
def kindAttribute? (own name : String) : Option Thing :=
  if name = "__name__" || name = "__qualname__" then some (ofString own)
  else if name = "__module__" then some (ofString "builtins")
  else if name = "__base__" then some ((above own).head?.elim .nothing .kind)
  else if name = "__bases__" then some (.kinds (above own))
  else if name = "__mro__" then some (.kinds (own :: above own))
  else if own ≠ "str" then none
  else if name = "__doc__" then some (ofString textDescription)
  else if textOperations.contains name then some (.textOperation name)
  else if kindOperations.contains name then some (.operation name (.kind own))
  else if name = "maketrans" then some (.operation name .nothing)
  else (signDefiner? name).map (.signOf name)

/-- An attribute that everything has, or one of its own. -/
def attribute? (t : Thing) (name : String) : Option Thing :=
  if name = "__class__" then some (.kind t.kindName)
  else match t with
    | .text s => textAttribute? s name
    | .kind own => kindAttribute? own name
    | .operation own owner =>
      if name = "__name__" then some (ofString own)
      else if name = "__qualname__" then some (ofString ("str." ++ own))
      else if name = "__self__" then some owner
      else if name = "__module__" then some .nothing
      else none
    | .sign own definer owner =>
      if name = "__name__" then some (ofString own)
      else if name = "__qualname__" then some (ofString (definer ++ "." ++ own))
      else if name = "__self__" then some (.text owner)
      else if name = "__objclass__" then some (.kind definer)
      else none
    | .textOperation own =>
      if name = "__name__" then some (ofString own)
      else if name = "__qualname__" then some (ofString ("str." ++ own))
      else if name = "__objclass__" then some (.kind "str")
      else none
    | .signOf own definer =>
      if name = "__name__" then some (ofString own)
      else if name = "__qualname__" then some (ofString (definer ++ "." ++ own))
      else if name = "__objclass__" then some (.kind definer)
      else none
    | _ => none

/-! ### Texts -/

/-- A text is shown as it is. -/
theorem shown_text (s : List Char) : (Thing.text s).shown = s := rfl

end Thing

end Conductor.Command
