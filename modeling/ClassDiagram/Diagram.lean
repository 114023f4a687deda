import ClassDiagram.Diagnostic
import ClassDiagram.Entity
import ClassDiagram.Relation

/-!
# Diagrams

A diagram has a table of the registered entities, a table of stubs for names that stay unknown,
the relations in the order in which they were added, the diagnostics so far, and the mark that
says whether associations were already inferred. A registered placeholder counts as declared only
once a declaration has completed it.
-/

namespace ClassDiagram

/-- A model of classes and their relations. -/
structure Diagram where
  objects : Table Entity := {}
  stubs : Table Entity := {}
  relations : List Relation := []
  diagnostics : List Diagnostic := []
  inferred : Bool := false
deriving DecidableEq, Inhabited

/-- The position of a name that is declared, and not merely held by a placeholder. -/
def Table.declared? (objects : Table Entity) (name : String) : Option Nat :=
  if (objects.get? name).any (!·.isPlaceholder) then some (objects.position name) else none

namespace Diagram

/-- The number of registered entities. -/
def size (d : Diagram) : Nat :=
  d.objects.size

def isEmpty (d : Diagram) : Bool :=
  d.objects.entries.isEmpty

/-- The registered entity of a name, be it declared or not. -/
def lookup (d : Diagram) (name : String) : Option Ref :=
  if (d.objects.get? name).isSome then some (.registered (d.objects.position name)) else none

/-- The declared entity of a name. -/
def lookupDeclared (d : Diagram) (name : String) : Option Ref :=
  (d.objects.declared? name).map .registered

/-- The entity behind a reference. -/
def entity? (d : Diagram) : Ref → Option Entity
  | .registered index => d.objects.at? index
  | .stub index => d.stubs.at? index

/-- The key under which the entity behind a reference is stored. -/
def key? (d : Diagram) : Ref → Option String
  | .registered index => d.objects.key? index
  | .stub index => d.stubs.key? index

/-- Change the entity behind a reference; its key stays. -/
def modifyEntity (d : Diagram) (ref : Ref) (f : Entity → Entity) : Diagram :=
  match ref with
  | .registered index => { d with objects := d.objects.modify index f }
  | .stub index => { d with stubs := d.stubs.modify index f }

/-- The name that an end is about. -/
def endpointName? (d : Diagram) : Endpoint → Option String
  | .name name => some name
  | .ref ref => (d.entity? ref).map (·.name)

/-- The registered entities with their references, in the order of registration. -/
def registered (d : Diagram) : List (Ref × Entity) :=
  d.objects.values.zipIdx.map fun e => (.registered e.2, e.1)

/-- The declared entities with their references, in the order of registration. -/
def declared (d : Diagram) : List (Ref × Entity) :=
  d.registered.filter fun e => !e.2.isPlaceholder

/-- Register an entity under its name. A declaration completes a placeholder in place, and a
placeholder is absorbed by what is there; a second declaration is refused. -/
def register (d : Diagram) (e : Entity) : Except ModelError (Diagram × Ref) :=
  match d.objects.get? e.name with
  | none =>
    .ok ({ d with objects := d.objects.insert e.name e },
      .registered (d.objects.position e.name))
  | some present =>
    if !present.isPlaceholder && !e.isPlaceholder then .error (.duplicateObject e.name)
    else do
      let merged ← present.merge e
      return ({ d with objects := d.objects.insert e.name merged },
        .registered (d.objects.position e.name))

/-- The stub of a name, which is made when the name is new. -/
def stub (d : Diagram) (name : String) : Diagram × Ref :=
  ({ d with stubs := d.stubs.ensure name (.placeholder name) },
    .stub (d.stubs.position name))

/-- Add a relation behind the others. -/
def relate (d : Diagram) (r : Relation) : Diagram :=
  { d with relations := d.relations ++ [r] }

/-- Add a diagnostic behind the others. -/
def report (d : Diagram) (diagnostic : Diagnostic) : Diagram :=
  { d with diagnostics := d.diagnostics ++ [diagnostic] }

/-- Record that associations have been inferred. -/
def markInferred (d : Diagram) : Diagram :=
  { d with inferred := true }

/-- Whether every end of every relation is resolved. -/
def isResolved (d : Diagram) : Bool :=
  d.relations.all (·.isResolved)

end Diagram

end ClassDiagram
