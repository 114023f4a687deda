/-!
# Documentation comments

A comment is free text followed by tags. A tag has a name, positional parameters and a value;
continuation lines extend the value.
-/

namespace ClassDiagram

/-- A tag of a comment: its name, its positional parameters and the text behind them. -/
structure Tag where
  name : String
  params : List String := []
  value : String := ""
deriving DecidableEq, Inhabited

/-- Append text to the value behind one space; nothing is appended to it for empty text. -/
def Tag.extend (tag : Tag) (more : String) : Tag :=
  if more = "" then tag
  else if tag.value = "" then { tag with value := more }
  else { tag with value := tag.value ++ " " ++ more }

/-- Free text and the tags behind it. -/
structure Comment where
  text : String := ""
  tags : List Tag := []
deriving DecidableEq, Inhabited

namespace Comment

/-- Neither text nor tags. -/
def isEmpty (c : Comment) : Bool :=
  c.text.isEmpty && c.tags.isEmpty

/-- The tags of one name, in order. -/
def tagsNamed (c : Comment) (name : String) : List Tag :=
  c.tags.filter (·.name = name)

/-- The first tag of a name. -/
def tag? (c : Comment) (name : String) : Option Tag :=
  c.tags.find? (·.name = name)

def hasTag (c : Comment) (name : String) : Bool :=
  (c.tag? name).isSome

/-- Add a tag behind the others. -/
def pushTag (c : Comment) (tag : Tag) : Comment :=
  { c with tags := c.tags ++ [tag] }

theorem hasTag_iff {c : Comment} {name : String} :
    c.hasTag name = true ↔ ∃ tag ∈ c.tags, tag.name = name := by
  simp [hasTag, tag?]

end Comment

end ClassDiagram
