import ClassDiagram.Diagram

/-!
# Resolving names

Every end that is a bare name becomes a reference: to the declared entity of that name, or to the
stub of the name. Each name without a declaration is reported once, however many ends carry it.
-/

namespace ClassDiagram

namespace Diagram

/-- The names at the ends of the relations, in order. -/
def pendingNames (d : Diagram) : List String :=
  (d.relations.flatMap (·.ends)).filterMap (·.pending?)

/-- The pending names without a declaration, each once, in the order of first occurrence. -/
def missingNames (d : Diagram) : List String :=
  (d.pendingNames.filter fun name => (d.lookupDeclared name).isNone).eraseDups

def unresolvedWarning (name : String) : Diagnostic where
  severity := .warning
  message := s!"unable to resolve object `{name}`"
  code := some .e100
  help := some s!"declare `{name}` or include the source that defines it"

/-- Add the stubs that are not there yet. -/
def ensureStubs (stubs : Table Entity) (names : List String) : Table Entity :=
  names.foldl (fun t name => t.ensure name (.placeholder name)) stubs

/-- The reference of a bare name: its declaration, or else its stub. -/
def link (objects stubs : Table Entity) : Endpoint → Endpoint
  | .ref ref => .ref ref
  | .name name =>
    match objects.declared? name with
    | some position => .ref (.registered position)
    | none => .ref (.stub (stubs.position name))

/-- Resolve all names. -/
def resolve (d : Diagram) : Diagram :=
  let missing := d.missingNames
  let stubs := ensureStubs d.stubs missing
  { d with
    stubs := stubs
    relations := d.relations.map (·.mapEnds (link d.objects stubs))
    diagnostics := d.diagnostics ++ missing.map unresolvedWarning }

theorem isResolved_resolve (d : Diagram) : d.resolve.isResolved = true := by
  have h (objects stubs : Table Entity) (e : Endpoint) :
      (link objects stubs e).isResolved = true := by
    cases e with
    | ref r => rfl
    | name n => simp only [link]; split <;> rfl
  simp [isResolved, resolve, Relation.isResolved, Relation.mapEnds, h]

end Diagram

end ClassDiagram
