import ClassDiagram.Annotation
import ClassDiagram.Diagram
import ClassDiagram.Settings

/-!
# Inferring associations

The associations of a declared entity come from three places, in this order: annotations on the
entity, annotations on its attributes, and the declared entities that the types of its other
attributes mention. An entity with `@noassoc` has only the first, and an attribute with it
mentions nothing. An annotation that cannot be read, or whose target is not declared, leads to a
warning in place of its relation.

Inference runs once: a diagram that carries the mark is left as it is.
-/

namespace ClassDiagram

/-- What one annotation leads to: a warning or a relation. -/
abbrev Finding := Except Diagnostic Relation

namespace Finding

/-- The warnings among findings, in order. -/
def warnings (findings : List Finding) : List Diagnostic :=
  findings.filterMap fun f => match f with
    | .error warning => some warning
    | .ok _ => none

/-- The relations among findings, in order. -/
def relations (findings : List Finding) : List Relation :=
  findings.filterMap fun f => match f with
    | .error _ => none
    | .ok relation => some relation

end Finding

namespace Diagram

def assocTag : String := "assoc"
def noAssocTag : String := "noassoc"

def malformedWarning (owner : Entity) (value : String) (e : AnnotationError) : Diagnostic where
  severity := .warning
  message := s!"malformed `@assoc {value}`: {e.message}"
  code := some .e200
  object := some owner.name
  help := some "expected `[mult] [role] [name] <arrow> [mult] [role] [$option] Target`"

def unknownTargetWarning (owner : Entity) (target : String) : Diagnostic where
  severity := .warning
  message := s!"unknown association target `{target}`"
  code := some .e201
  object := some owner.name
  help := some "the last token of `@assoc` must name a declared object"

/-- Label the far end where the annotation left it without a role. -/
def withDefaultRoleB (a : Association) (role : String) : Association :=
  if a.roleB = "" then { a with roleB := role } else a

/-- What the annotation of a tag leads to. -/
def findTag (d : Diagram) (source : Ref) (owner : Entity) (defaultRoleB : String) (tag : Tag) :
    Finding :=
  match Annotation.read tag.value with
  | .error e => .error (malformedWarning owner tag.value e)
  | .ok annotation =>
    match d.lookupDeclared annotation.target with
    | none => .error (unknownTargetWarning owner annotation.target)
    | some target =>
      .ok (.associate source target (withDefaultRoleB annotation.association defaultRoleB))

/-- What the annotations of a comment lead to. -/
def findExplicit (d : Diagram) (source : Ref) (owner : Entity) (defaultRoleB : String)
    (doc : Comment) : List Finding :=
  (doc.tagsNamed assocTag).map (d.findTag source owner defaultRoleB)

/-- The declared entities that the types of attributes mention, each with the attribute's name. -/
def mentions (d : Diagram) (attributes : List Member) : List (Ref × String) :=
  attributes.flatMap fun m =>
    match m.type? with
    | none => []
    | some type => type.names.filterMap fun name => (d.lookupDeclared name).map (·, m.name)

/-- The names of the attributes that mention a target. -/
def rolesOf (ms : List (Ref × String)) (target : Ref) : List String :=
  (ms.filter (·.1 = target)).map Prod.snd

/-- The mentioned targets, each once, in the order of first mention. -/
def targets (ms : List (Ref × String)) : List Ref :=
  (ms.map Prod.fst).eraseDups

/-- The label of a merged relation: all roles, or none if there are too many. -/
def mergedLabel (s : AssociationSettings) (roles : List String) : String :=
  if s.allowsRoles roles.length then ", ".intercalate roles else ""

/-- The relations for one target. -/
def inferTarget (s : AssociationSettings) (source : Ref) (ms : List (Ref × String))
    (target : Ref) : List Relation :=
  let labels := if s.merge then [mergedLabel s (rolesOf ms target)] else rolesOf ms target
  labels.map fun label => .associate source target (.ofRoleB label)

/-- The attributes whose types count for inference. -/
def inferring (owner : Entity) : List Member :=
  owner.attributes.filter fun m => !m.doc.hasTag assocTag && !m.doc.hasTag noAssocTag

/-- The findings of one declared entity. -/
def findAll (d : Diagram) (s : AssociationSettings) (source : Ref) (owner : Entity) :
    List Finding :=
  let own := d.findExplicit source owner "" owner.doc
  if owner.doc.hasTag noAssocTag then own
  else
    let annotated := owner.attributes.flatMap fun m => d.findExplicit source owner m.name m.doc
    let ms := d.mentions (inferring owner)
    own ++ annotated ++ ((targets ms).flatMap (inferTarget s source ms)).map .ok

/-- Infer the associations of a diagram that does not carry the mark. -/
def associate (d : Diagram) (s : AssociationSettings) : Diagram :=
  if d.inferred then d
  else
    let findings := d.declared.flatMap fun e => d.findAll s e.1 e.2
    { d with
      relations := d.relations ++ Finding.relations findings
      diagnostics := d.diagnostics ++ Finding.warnings findings
      inferred := true }

end Diagram

end ClassDiagram
