import ClassDiagram.Table

/-!
# Relations

Directed edges between entities. An end is a bare name until names are resolved, and then a
reference into one of the diagram's two tables. References are ordered as they are drawn:
declared entities before stubs, each by position.
-/

namespace ClassDiagram

/-- A position in the table of registered entities or in that of stubs. -/
inductive Ref
  | registered (index : Nat)
  | stub (index : Nat)
deriving DecidableEq, Inhabited

namespace Ref

def isStub : Ref → Bool
  | registered _ => false
  | stub _ => true

/-- The drawing order, in which registered entities come before stubs. -/
def before : Ref → Ref → Bool
  | registered i, registered j => i < j
  | registered _, stub _ => true
  | stub _, registered _ => false
  | stub i, stub j => i < j

end Ref

/-- One end of a relation. -/
inductive Endpoint
  | name (name : String)
  | ref (ref : Ref)
deriving DecidableEq, Inhabited

namespace Endpoint

def ref? : Endpoint → Option Ref
  | name _ => none
  | ref r => some r

/-- The name of an end that is not resolved yet. -/
def pending? : Endpoint → Option String
  | name n => some n
  | ref _ => none

def isResolved (e : Endpoint) : Bool :=
  e.ref?.isSome

end Endpoint

/-- What is drawn at an end of an association. -/
inductive ArrowHead
  | none
  | directed
  | aggregation
  | composition
deriving DecidableEq, Inhabited

namespace ArrowHead

def label : ArrowHead → String
  | none => "none"
  | directed => "directed"
  | aggregation => "aggregation"
  | composition => "composition"

/-- The head that a character beside the dash of an arrow stands for. -/
def ofChar (c : Char) : ArrowHead :=
  if c = '>' ∨ c = '<' then directed
  else if c = 'o' then aggregation
  else if c = '*' then composition
  else none

def all : List ArrowHead := [none, directed, aggregation, composition]

/-- The head with a label. -/
def ofLabel? (s : String) : Option ArrowHead :=
  all.find? (·.label = s)

end ArrowHead

/-- The labels and marks of an association. Options that are not set are off. -/
structure Association where
  name : String := ""
  roleA : String := ""
  roleB : String := ""
  multiplicityA : String := ""
  multiplicityB : String := ""
  headA : ArrowHead := .none
  headB : ArrowHead := .none
  options : Table Bool := {}
deriving DecidableEq, Inhabited

namespace Association

/-- An association that shows no more than a role at its far end. -/
def ofRoleB (role : String) : Association :=
  { roleB := role }

def option (a : Association) (key : String) : Bool :=
  (a.options.get? key).getD false

end Association

inductive RelationKind
  | inheritance
  | implements
  | association (association : Association)
deriving DecidableEq, Inhabited

def RelationKind.label : RelationKind → String
  | inheritance => "inheritance"
  | implements => "implements"
  | association _ => "association"

/-- An edge from end `a` to end `b`. -/
structure Relation where
  a : Endpoint
  b : Endpoint
  kind : RelationKind
deriving DecidableEq, Inhabited

namespace Relation

/-- Both ends, `a` first. -/
def ends (r : Relation) : List Endpoint :=
  [r.a, r.b]

/-- Change both ends and keep the kind. -/
def mapEnds (f : Endpoint → Endpoint) (r : Relation) : Relation :=
  { r with a := f r.a, b := f r.b }

def isResolved (r : Relation) : Bool :=
  r.a.isResolved && r.b.isResolved

/-- An association between two entities of the diagram. -/
def associate (source target : Ref) (association : Association) : Relation :=
  ⟨.ref source, .ref target, .association association⟩

end Relation

end ClassDiagram
