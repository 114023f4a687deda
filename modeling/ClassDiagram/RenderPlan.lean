import ClassDiagram.Package

/-!
# Render plans

A view selects roots, which are entities and packages. Its plan lists what is drawn: the entities
of the roots in drawing order, the relations between them, and, if neighbours are wanted, also
the relations that leave them together with the entities those reach. Relations with an end that
is a bare name are never drawn.
-/

namespace ClassDiagram

/-- What a view is anchored at. -/
inductive Root
  | object (ref : Ref)
  | package (package : Package)
deriving Inhabited

/-- The entities that a root stands for. -/
def Root.collect : Root → List Ref
  | object ref => [ref]
  | package p => p.collect

/-- A selection of roots, with or without the neighbours that relations lead to. -/
structure View where
  roots : List Root
  adjacent : Bool := false
deriving Inhabited

/-- What is drawn of a diagram. -/
structure RenderPlan where
  objects : List (Ref × Entity)
  adjacent : List (Ref × Entity)
  relations : List Relation
deriving DecidableEq, Inhabited

namespace RenderPlan

def objectRefs (p : RenderPlan) : List Ref := p.objects.map Prod.fst

def adjacentRefs (p : RenderPlan) : List Ref := p.adjacent.map Prod.fst

def isEmpty (p : RenderPlan) : Bool :=
  p.objects.isEmpty && p.adjacent.isEmpty && p.relations.isEmpty

end RenderPlan

/-- Put a reference in its place in drawing order, unless it is there. -/
def Ref.insertSorted (ref : Ref) : List Ref → List Ref
  | [] => [ref]
  | r :: rest =>
    if ref = r then r :: rest
    else if ref.before r then ref :: r :: rest
    else r :: insertSorted ref rest

/-- The references in drawing order, each once. -/
def Ref.sorted (refs : List Ref) : List Ref :=
  refs.foldr Ref.insertSorted []

namespace View

/-- The entities that are drawn in full. -/
def rendered (v : View) : List Ref :=
  Ref.sorted (v.roots.flatMap (·.collect))

/-- Whether a relation is drawn beside the given entities. -/
def shows (rendered : List Ref) (adjacent : Bool) (r : Relation) : Bool :=
  match r.a.ref?, r.b.ref? with
  | some a, some b => a ∈ rendered && (b ∈ rendered || adjacent)
  | _, _ => false

/-- The relations that are drawn. -/
def relations (v : View) (d : Diagram) : List Relation :=
  d.relations.filter (shows v.rendered v.adjacent)

/-- The far ends of drawn relations that are not drawn in full, each once. -/
def neighbours (v : View) (d : Diagram) : List Ref :=
  let rendered := v.rendered
  (((v.relations d).filterMap (·.b.ref?)).filter (· ∉ rendered)).eraseDups

/-- What is drawn of a diagram; references that lead nowhere are left out. -/
def plan (v : View) (d : Diagram) : RenderPlan :=
  let located : List Ref → List (Ref × Entity) := fun refs =>
    refs.filterMap fun ref => (d.entity? ref).map (ref, ·)
  { objects := located v.rendered
    adjacent := located (v.neighbours d)
    relations := v.relations d }

end View

/-- The view of all declared entities. -/
def Diagram.viewAll (d : Diagram) (adjacent : Bool) : View where
  roots := d.declared.map (.object ·.1)
  adjacent := adjacent

end ClassDiagram
