import ClassDiagram.Diagnostic
import ClassDiagram.Doc.Description

/-!
# Documentation blocks

A block stands between `/**` and `*/`, and every line but the first opens with a star behind at
most spaces and tabs, or is blank. A comment of another form is no block and holds no
documentation. A block with faults is refused under the strict policy, with one diagnostic for
each fault, and passed over under the lenient one.
-/

namespace ClassDiagram

open Text

/-- What becomes of a malformed block. -/
inductive DocPolicy
  | lenient
  | strict
deriving DecidableEq, Inhabited

/-- What is wrong with a block. Lines count from one, the first being that of the opening. -/
inductive BlockFault
  | unterminated
  | strayLine (number : Nat)
deriving DecidableEq

def BlockFault.diagnostic : BlockFault → Diagnostic
  | unterminated =>
    { severity := .error
      message := "documentation block is not terminated"
      code := some .e301
      help := some "close the block with `*/`" }
  | strayLine number =>
    { severity := .error
      message := s!"documentation line {number} does not start with `*`"
      code := some .e300
      help := some "prefix every line of a `/** */` block with `*`" }

namespace Block

/-- How a text stands to the delimiters of a block. -/
inductive Frame
  | foreign
  | unterminated
  | inner (text : List Char)
deriving DecidableEq

/-- Remove the delimiters. `/**/` is an empty comment of another form. -/
def frame (raw : List Char) : Frame :=
  match trim raw with
  | '/' :: '*' :: '*' :: body =>
    if body.head? = some '/' then .foreign
    else if ['*', '/'].isSuffixOf body then .inner (body.take (body.length - 2))
    else .unterminated
  | _ => .foreign

/-- What follows the star of a line, less one space. -/
def afterStar? (line : List Char) : Option (List Char) :=
  match line.dropWhile isGap with
  | '*' :: ' ' :: rest => some rest
  | '*' :: rest => some rest
  | _ => none

/-- A line that neither opens with a star nor is blank. -/
def isStray (line : List Char) : Bool :=
  !line.all isBlank && (afterStar? line).isNone

/-- The faults of the lines behind the first, which has the number one. -/
def strayLines (later : List (List Char)) : List BlockFault :=
  ((later.zipIdx 2).filter fun l => isStray l.1).map fun l => .strayLine l.2

/-- The lines without their stars. The first line, behind the opening, has none. -/
def contents : List (List Char) → List (List Char)
  | [] => []
  | first :: later => first :: later.map fun line => (afterStar? line).getD []

/-- Read a block, or say what is wrong with it. -/
def read (raw : String) : Except (List BlockFault) (Option Comment) :=
  match frame raw.toList with
  | .foreign => .ok none
  | .unterminated => .error [.unterminated]
  | .inner text =>
    match strayLines (lines text).tail with
    | [] => .ok (some (Comment.ofLines (contents (lines text))))
    | faults => .error faults

/-- Read a block under a policy. -/
def readUnder (policy : DocPolicy) (raw : String) : Except (List BlockFault) (Option Comment) :=
  match policy, read raw with
  | .lenient, .error _ => .ok none
  | _, result => result

end Block

end ClassDiagram
