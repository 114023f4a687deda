import ClassDiagram.Text.Pieces

/-!
# Type expressions

What a source tells about the type of an attribute, an argument or a result: a primitive, a
reference to another type by name, nothing, a container with one item type, or text that was
not taken apart.
-/

namespace ClassDiagram

/-- A declared type. -/
inductive TypeExpr
  | primitive (name : String)
  | named (name : String)
  | void
  | list (item : TypeExpr)
  | set (item : TypeExpr)
  | optional (item : TypeExpr)
  | source (text : String)
deriving DecidableEq, Inhabited

namespace TypeExpr

def render : TypeExpr → String
  | primitive name => name
  | named name => name
  | void => "void"
  | list item => "List<" ++ item.render ++ ">"
  | set item => "Set<" ++ item.render ++ ">"
  | optional item => "Optional<" ++ item.render ++ ">"
  | source text => text

/-- The type that a container holds. -/
def item? : TypeExpr → Option TypeExpr
  | list item | set item | optional item => some item
  | primitive _ | named _ | void | source _ => none

/-- The primitive type of truth values. -/
def isBoolean (type : TypeExpr) : Bool :=
  type == primitive "boolean"

/-- A blank or a punctuation mark that stands between names in source text. -/
def isDelimiter (c : Char) : Bool :=
  ['<', '>', '(', ')', '[', ']', '\x7b', '\x7d', ',', '|', '.'].contains c || Text.isBlank c

/-- The names in source text, each once, in the order of their first occurrence. -/
def sourceNames (text : List Char) : List String :=
  ((Text.tokens isDelimiter text).map String.ofList).eraseDups

/-- The type names that occur in a type, each once, in the order of their first occurrence. -/
def names : TypeExpr → List String
  | named name => [name]
  | list item | set item | optional item => item.names
  | source text => sourceNames text.toList
  | primitive _ | void => []

/-- Rename the references to other types; all other parts stay. -/
def rename (f : String → String) : TypeExpr → TypeExpr
  | named name => named (f name)
  | list item => list (item.rename f)
  | set item => set (item.rename f)
  | optional item => optional (item.rename f)
  | primitive name => primitive name
  | void => void
  | source text => source text

end TypeExpr

end ClassDiagram
