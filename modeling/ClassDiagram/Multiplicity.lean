/-!
# Multiplicities

How many objects take part at an end of an association: one bound, or two with `..` between
them, where a bound is a star or a number in ASCII digits.
-/

namespace ClassDiagram

/-- What follows the bound at the front of a text. -/
def Multiplicity.afterBound? : List Char → Option (List Char)
  | '*' :: rest => some rest
  | c :: rest => if c.isDigit then some (rest.dropWhile Char.isDigit) else none
  | [] => none

/-- Whether the whole text is a multiplicity. -/
def isMultiplicity (s : List Char) : Bool :=
  match Multiplicity.afterBound? s with
  | some [] => true
  | some ('.' :: '.' :: rest) => Multiplicity.afterBound? rest = some []
  | _ => false

end ClassDiagram
