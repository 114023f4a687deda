import ClassDiagram.Doc.Comment
import ClassDiagram.Text.Alphanumeric
import ClassDiagram.Text.Lines

/-!
# Descriptions

A description is a comment without any markup around its lines. The lines before the first tag
are its text; a line that opens with `@` and a name starts a tag, and the lines behind it up to
the next tag extend the tag's value. Reading cannot fail: a line that opens no tag is text.
-/

namespace ClassDiagram

open Text

namespace Tag

/-- The characters of tag names. -/
def isNameChar (c : Char) : Bool :=
  isAlphanumeric c || c == '_' || c == '-'

/-- Whether the word behind a tag's name is a parameter and not yet the value. -/
def takesParam (name : String) : Bool :=
  ["param", "throws", "exception"].contains name

/-- The tag whose name and remaining line are given. -/
def ofParts (name rest : List Char) : Tag :=
  let word := rest.takeWhile (!isBlank ·)
  if takesParam (String.ofList name) && !word.isEmpty then
    { name := String.ofList name
      params := [String.ofList word]
      value := String.ofList (trim (rest.dropWhile (!isBlank ·))) }
  else
    { name := String.ofList name, value := String.ofList (trim rest) }

/-- The tag that a line opens. -/
def ofLine? : List Char → Option Tag
  | '@' :: line =>
    let name := line.takeWhile isNameChar
    if name.isEmpty then none
    else some (ofParts name ((line.dropWhile isNameChar).dropWhile isGap))
  | _ => none

/-- Extend the value by several lines. -/
def extendLines (tag : Tag) (more : List (List Char)) : Tag :=
  more.foldl (fun t line => t.extend (String.ofList line)) tag

end Tag

namespace Comment

/-- The lines before the first tag, and the tags with the lines behind each. -/
def sections : List (List Char) → List (List Char) × List Tag
  | [] => ([], [])
  | line :: rest =>
    let (plain, tags) := sections rest
    match Tag.ofLine? line with
    | some tag => ([], tag.extendLines plain :: tags)
    | none => (line :: plain, tags)

/-- The comment that lines without markup hold; blanks around each line do not count. -/
def ofLines (ls : List (List Char)) : Comment :=
  let (plain, tags) := sections (ls.map trim)
  { text := String.ofList (trim (unlines plain)), tags := tags }

/-- Read a description. -/
def ofDescription (text : String) : Comment :=
  ofLines (lines text.toList)

end Comment

end ClassDiagram
