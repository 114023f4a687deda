import ClassDiagram.Diagram

/-!
# Fusing two diagrams

The entities of the second diagram are merged into the first by their keys, and its relations
follow those of the first. References into the second diagram's tables mean nothing in the first,
so they go through the key: to the declared entity of that key, or back to a bare name. A stub of
the first diagram whose name is now declared gives way to the declaration.

Whether two declarations of one key are of different kinds is decided before anything is merged.
-/

namespace ClassDiagram

namespace Diagram

/-- The conflict of an incoming declaration with one of another kind under the same key. -/
def conflict? (objects : Table Entity) (incoming : String × Entity) : Option ModelError :=
  match objects.get? incoming.1 with
  | none => none
  | some present =>
    if !present.isPlaceholder && !incoming.2.isPlaceholder && present.kind != incoming.2.kind then
      some (.kindConflict incoming.1 present.kind incoming.2.kind)
    else none

/-- Merge one entity into the table under its key. -/
def mergeEntry (objects : Table Entity) (incoming : String × Entity) :
    Except ModelError (Table Entity) :=
  match objects.get? incoming.1 with
  | none => .ok (objects.insert incoming.1 incoming.2)
  | some present => (present.merge incoming.2).map (objects.insert incoming.1)

/-- Merge entities into the table one after the other. -/
def mergeEntries (objects : Table Entity) :
    List (String × Entity) → Except ModelError (Table Entity)
  | [] => .ok objects
  | entry :: rest => do mergeEntries (← mergeEntry objects entry) rest

/-- An end at a stub whose name is declared moves to the declaration. -/
def settle (objects stubs : Table Entity) : Endpoint → Endpoint
  | .ref (.stub index) =>
    match (stubs.key? index).bind objects.declared? with
    | some position => .ref (.registered position)
    | none => .ref (.stub index)
  | other => other

/-- Carry an end of another diagram over: by its key to a declared entity, or to the bare name. -/
def retarget (objects : Table Entity) (other : Diagram) : Endpoint → Endpoint
  | .name name => .name name
  | .ref ref =>
    match other.key? ref with
    | none => .ref ref
    | some key =>
      match objects.declared? key with
      | some position => .ref (.registered position)
      | none => .name key

/-- Merge another diagram into this one. -/
def fuse (d other : Diagram) : Except ModelError Diagram :=
  match other.objects.entries.findSome? (conflict? d.objects) with
  | some conflict => .error conflict
  | none => do
    let objects ← mergeEntries d.objects other.objects.entries
    return {
      objects := objects
      stubs := d.stubs
      relations := d.relations.map (·.mapEnds (settle objects d.stubs)) ++
        other.relations.map (·.mapEnds (retarget objects other))
      diagnostics := d.diagnostics ++ other.diagnostics
      inferred := d.inferred || other.inferred }

end Diagram

end ClassDiagram
