import ClassDiagram.Multiplicity
import ClassDiagram.Relation
import ClassDiagram.Text.Pieces

/-!
# Association annotations

An annotation describes an association in words: multiplicity, role and name of the near end, an
arrow, multiplicity and role of the far end, and last the target. Each word tells its own class:
a word with a dash is the arrow, a word that opens with a dollar sign switches an option on, and
what is neither of these nor a multiplicity is a label.
-/

namespace ClassDiagram

inductive Side
  | a
  | b
deriving DecidableEq, Inhabited

def Side.label : Side → String
  | a => "A"
  | b => "B"

/-- Why an annotation cannot be read. -/
inductive AnnotationError
  | empty
  | missingArrow
  | multipleArrows (first second : String)
  | missingTarget (last : String)
  | unexpectedToken (token : String) (side : Side)
deriving DecidableEq

def AnnotationError.message : AnnotationError → String
  | empty => "empty association annotation"
  | missingArrow => "missing arrow token, expected a token containing `-`"
  | multipleArrows first second => s!"more than one arrow token: `{first}` and `{second}`"
  | missingTarget last => s!"missing target object after `{last}`"
  | unexpectedToken token side => s!"unexpected token `{token}` on the {side.label} side"

/-- An association and the name of the entity at its far end. -/
structure Annotation where
  target : String
  association : Association
deriving DecidableEq

namespace Annotation

/-- The classes of words before the target. -/
inductive TokenClass
  | arrow
  | multiplicity
  | option (key : String)
  | label
deriving DecidableEq

/-- A dash makes an arrow unless the word is an option. -/
def isArrow (token : String) : Bool :=
  token.toList.head? != some '$' && token.toList.contains '-'

def classify (token : String) : TokenClass :=
  if isArrow token then .arrow
  else if isMultiplicity token.toList then .multiplicity
  else
    match token.toList with
    | '$' :: key => .option (String.ofList key)
    | _ => .label

/-- The head that the character before the first dash stands for. -/
def headBefore (arrow : List Char) : ArrowHead :=
  match (arrow.takeWhile (· != '-')).getLast? with
  | some c => .ofChar c
  | none => .none

/-- The head that the character behind the last dash stands for. -/
def headBehind (arrow : List Char) : ArrowHead :=
  match (arrow.reverse.takeWhile (· != '-')).getLast? with
  | some c => .ofChar c
  | none => .none

/-- What the words read so far say, and the arrow if it was among them. -/
structure Draft where
  association : Association := {}
  arrow : Option String := none
deriving DecidableEq, Inhabited

/-- The side that the next word describes. -/
def Draft.side (d : Draft) : Side :=
  if d.arrow.isSome then .b else .a

/-- Put a multiplicity in its place, if that is free. -/
def Draft.addMultiplicity? (d : Draft) (token : String) : Option Association :=
  match d.side with
  | .a =>
    if d.association.multiplicityA = "" then
      some { d.association with multiplicityA := token }
    else none
  | .b =>
    if d.association.multiplicityB = "" then
      some { d.association with multiplicityB := token }
    else none

/-- Put a label in the first free place of its side: a role, and on the near side a name. -/
def Draft.addLabel? (d : Draft) (token : String) : Option Association :=
  match d.side with
  | .a =>
    if d.association.roleA = "" then some { d.association with roleA := token }
    else if d.association.name = "" then some { d.association with name := token }
    else none
  | .b =>
    if d.association.roleB = "" then some { d.association with roleB := token }
    else none

/-- Switch an option on; it needs a key. -/
def Draft.addOption? (d : Draft) (key : String) : Option Association :=
  if key = "" then none
  else some { d.association with options := d.association.options.insert key true }

/-- Read one word. -/
def Draft.step (d : Draft) (token : String) : Except AnnotationError Draft :=
  let place : Option Association → Except AnnotationError Draft
    | some association => .ok { d with association := association }
    | none => .error (.unexpectedToken token d.side)
  match classify token with
  | .arrow =>
    match d.arrow with
    | some first => .error (.multipleArrows first token)
    | none =>
      .ok {
        association := { d.association with
          headA := headBefore token.toList
          headB := headBehind token.toList }
        arrow := some token }
  | .multiplicity => place (d.addMultiplicity? token)
  | .option key => place (d.addOption? key)
  | .label => place (d.addLabel? token)

/-- Read the words before the target. -/
def Draft.steps (d : Draft) : List String → Except AnnotationError Draft
  | [] => .ok d
  | token :: rest => do (← d.step token).steps rest

/-- Read an annotation given as words. -/
def ofTokens (tokens : List String) : Except AnnotationError Annotation :=
  match tokens.getLast? with
  | none => .error .empty
  | some target =>
    if isArrow target then .error (.missingTarget target)
    else do
      let draft ← Draft.steps {} tokens.dropLast
      if draft.arrow.isSome then .ok ⟨target, draft.association⟩
      else .error .missingArrow

/-- Read the text of an annotation. -/
def read (text : String) : Except AnnotationError Annotation :=
  ofTokens (Text.words text)

end Annotation

end ClassDiagram
