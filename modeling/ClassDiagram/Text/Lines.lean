import ClassDiagram.Text.Pieces

/-!
# Lines

A line ends at a line feed, or at a carriage return with a line feed behind it. A carriage
return anywhere else is part of its line, and a text that ends with a line feed has no further
empty line.
-/

namespace ClassDiagram.Text

/-- Remove the carriage return that belongs to the line's end. -/
def dropReturn (line : List Char) : List Char :=
  if line.getLast? = some '\r' then line.dropLast else line

/-- Only the last stretch was not ended by a line feed: it keeps a final carriage return, and
it is no line when it is empty. -/
def closeLines : List (List Char) → List (List Char)
  | [] => []
  | [last] => if last.isEmpty then [] else [last]
  | line :: rest => dropReturn line :: closeLines rest

def lines (s : List Char) : List (List Char) :=
  closeLines (pieces (· == '\n') s)

/-- The lines with a line feed between neighbours. -/
def unlines (ls : List (List Char)) : List Char :=
  ['\n'].intercalate ls

end ClassDiagram.Text
