import ClassDiagram.Diagram
import ClassDiagram.Text.Uppercase

/-!
# Accessors

Every private attribute that is not static gets a public method that returns it, unless the
entity has a method of that name already. Attributes that would share a name share the accessor
of the first of them.
-/

namespace ClassDiagram

/-- The stereotype of methods that no source declares. -/
def generatedStereotype : String := "generated"

/-- A name with the first character in upper case. -/
def capitalize (name : String) : String :=
  match name.toList with
  | [] => ""
  | c :: rest => String.ofList (Text.uppercase c ++ rest)

namespace Member

/-- Truth values are asked with `is`, all else is got. -/
def accessorName (m : Member) : String :=
  (if m.type?.any (·.isBoolean) then "is" else "get") ++ capitalize m.name

/-- Whether an attribute is hidden from other classes and belongs to an object. -/
def needsAccessor (m : Member) : Bool :=
  m.visibility == .privateAccess && !m.isStatic

/-- The method that returns an attribute. -/
def accessor? (m : Member) : Option Member :=
  m.type?.map fun type =>
    { method m.accessorName .publicAccess [] type with stereotypes := [generatedStereotype] }

end Member

namespace Entity

/-- The first member of each accessor name. -/
def firstOfName (seen : List String) : List Member → List Member
  | [] => []
  | m :: rest =>
    if m.accessorName ∈ seen then firstOfName seen rest
    else m :: firstOfName (m.accessorName :: seen) rest

/-- The accessors that an entity lacks. -/
def missingAccessors (e : Entity) : List Member :=
  let lacking := e.attributes.filter fun m => m.needsAccessor && !e.hasMethod m.accessorName
  (firstOfName [] lacking).filterMap (·.accessor?)

/-- Add the accessors that an entity lacks. -/
def withAccessors (e : Entity) : Except ModelError Entity :=
  e.addMembers e.missingAccessors

end Entity

namespace Diagram

/-- Add the missing accessors to every registered entity; the number tells how many there were. -/
def synthesizeAccessors (d : Diagram) : Except ModelError (Diagram × Nat) := do
  let objects ← d.objects.traverse (·.withAccessors)
  return ({ d with objects := objects }, (d.objects.values.flatMap (·.missingAccessors)).length)

end Diagram

end ClassDiagram
