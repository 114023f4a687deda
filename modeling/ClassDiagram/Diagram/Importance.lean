import ClassDiagram.Diagram

/-!
# Importance

Entities and members whose documentation carries `@important` are flagged. A flag that was set
before is never taken away.
-/

namespace ClassDiagram

def importantTag : String := "important"

/-- Flag a member that asks for it. -/
def Member.markImportant (m : Member) : Member :=
  { m with important := m.important || m.doc.hasTag importantTag }

namespace Entity

/-- Flag an entity and those of its members that ask for it. -/
def markImportant (e : Entity) : Entity :=
  { e.mapMembers (·.markImportant) with
    important := e.important || e.doc.hasTag importantTag }

/-- How many flags the documentation of an entity and its members asks for. -/
def importantCount (e : Entity) : Nat :=
  (if e.doc.hasTag importantTag then 1 else 0) +
    e.members.countP (·.doc.hasTag importantTag)

end Entity

namespace Diagram

/-- Flag what asks for it; the number tells how many entities and members that were. -/
def markImportant (d : Diagram) : Diagram × Nat :=
  ({ d with objects := d.objects.map (·.markImportant) },
    d.objects.values.foldl (fun count e => count + e.importantCount) 0)

end Diagram

end ClassDiagram
