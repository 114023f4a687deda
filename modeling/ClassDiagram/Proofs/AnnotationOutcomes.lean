import ClassDiagram.Proofs.InferenceOrder
import Mathlib.Data.List.Forall2

/-!
# The outcomes of annotations

Inference takes the annotations of a declared entity before it looks at types:
those on the entity, then, without `@noassoc`, those on its attributes. Each of
them leads to one finding, a warning or a relation, and what types lead to are
relations only. So no annotation is dropped or taken twice, and all warnings
come from annotations.
-/

namespace ClassDiagram

namespace Finding

theorem warnings_append (findings more : List Finding) :
    warnings (findings ++ more) = warnings findings ++ warnings more :=
  List.filterMap_append

theorem warnings_flatMap {β : Type} (f : β → List Finding) (xs : List β) :
    warnings (xs.flatMap f) = xs.flatMap fun x => warnings (f x) :=
  List.filterMap_flatMap

theorem warnings_map_ok (rs : List Relation) : warnings (rs.map .ok) = [] := by
  rw [warnings, List.filterMap_map]
  exact List.filterMap_eq_nil_iff.mpr fun _ _ => rfl

/-- A finding is a relation or a warning. -/
theorem length_relations_add_length_warnings (findings : List Finding) :
    (relations findings).length + (warnings findings).length = findings.length := by
  induction findings with
  | nil => rfl
  | cons f rest ih =>
      cases f with
      | error warning =>
          change (relations rest).length + (warnings rest).length.succ = rest.length.succ
          omega
      | ok r =>
          change (relations rest).length.succ + (warnings rest).length = rest.length.succ
          omega

end Finding

namespace Diagram

/-! ## Annotations in their places -/

/-- An annotation with the place where it stands: on an entity, or on one of its attributes. -/
structure PlacedTag where
  source : Ref
  owner : Entity
  attribute? : Option Member
  tag : Tag
deriving DecidableEq

/-- The annotations of an entity that inference takes, in the order of the scan: those of its own
comment, and unless it carries `@noassoc` those of its attributes. -/
def placedTags (e : Ref × Entity) : List PlacedTag :=
  (e.2.doc.tagsNamed assocTag).map (PlacedTag.mk e.1 e.2 none) ++
    if e.2.doc.hasTag noAssocTag then []
    else e.2.attributes.flatMap fun m =>
      (m.doc.tagsNamed assocTag).map (PlacedTag.mk e.1 e.2 (some m))

/-- What an annotation says in its place: on an attribute, a far end without a role is labelled
with the name of the attribute. -/
def PlacedTag.association (p : PlacedTag) (a : Association) : Association :=
  match p.attribute? with
  | none => a
  | some m => if a.roleB = "" then { a with roleB := m.name } else a

/-- What an annotation leads to: a warning with code E200 if it cannot be read, one with code E201
if its target is not declared, and otherwise the relation from its entity to the target. -/
structure IsOutcome (d : Diagram) (p : PlacedTag) (f : Finding) : Prop where
  malformed : (∃ warning, f = .error warning ∧ warning.code = some .e200) ↔
    ∃ error, Annotation.read p.tag.value = .error error
  unknown : (∃ warning, f = .error warning ∧ warning.code = some .e201) ↔
    ∃ annotation, Annotation.read p.tag.value = .ok annotation ∧
      d.lookupDeclared annotation.target = none
  drawn : ∀ r, f = .ok r ↔
    ∃ annotation target, Annotation.read p.tag.value = .ok annotation ∧
      d.lookupDeclared annotation.target = some target ∧
      r = .associate p.source target (p.association annotation.association)
  named : ∀ warning, f = .error warning →
    warning.severity = .warning ∧ warning.object = some p.owner.name

/-- What inference finds for an annotation in its place. -/
def findPlaced (d : Diagram) (p : PlacedTag) : Finding :=
  d.findTag p.source p.owner ((p.attribute?.map (·.name)).getD "") p.tag

theorem association_eq_withDefaultRoleB (p : PlacedTag) (a : Association) :
    p.association a = withDefaultRoleB a ((p.attribute?.map (·.name)).getD "") := by
  cases hm : p.attribute? with
  | some m => simp only [PlacedTag.association, hm, Option.map_some, Option.getD_some,
      withDefaultRoleB]
  | none =>
      simp only [PlacedTag.association, hm, Option.map_none, Option.getD_none, withDefaultRoleB]
      split
      · next hb =>
          cases a
          simp_all only
      · rfl

theorem isOutcome_findPlaced (d : Diagram) (p : PlacedTag) : d.IsOutcome p (d.findPlaced p) := by
  cases hr : Annotation.read p.tag.value with
  | error error =>
      have hf : d.findPlaced p = .error (malformedWarning p.owner p.tag.value error) := by
        rw [findPlaced, findTag, hr]
      constructor <;> simp [hf, hr, malformedWarning]
  | ok annotation =>
      cases hl : d.lookupDeclared annotation.target with
      | none =>
          have hf : d.findPlaced p =
              .error (unknownTargetWarning p.owner annotation.target) := by
            simp only [findPlaced, findTag, hr, hl]
          constructor <;> simp [hf, hr, hl, unknownTargetWarning]
      | some target =>
          have hf : d.findPlaced p =
              .ok (.associate p.source target (p.association annotation.association)) := by
            simp only [findPlaced, findTag, hr, hl, association_eq_withDefaultRoleB]
          constructor <;> simp [hf, hr, hl, eq_comm]

/-! ## The findings of a scan -/

/-- The relations that the types of an entity's attributes lead to. -/
def typeRelations (d : Diagram) (s : AssociationSettings) (e : Ref × Entity) : List Relation :=
  if e.2.doc.hasTag noAssocTag then []
  else (recordAll (d.uses e.2)).flatMap (groupRelations s e.1)

/-- What inference finds for the annotations of an entity. -/
def tagFindings (d : Diagram) (e : Ref × Entity) : List Finding :=
  (placedTags e).map d.findPlaced

theorem findExplicit_eq (d : Diagram) (source : Ref) (owner : Entity) (attribute? : Option Member)
    (doc : Comment) :
    d.findExplicit source owner ((attribute?.map (·.name)).getD "") doc =
      ((doc.tagsNamed assocTag).map (PlacedTag.mk source owner attribute?)).map d.findPlaced := by
  rw [findExplicit, List.map_map]
  rfl

/-- The findings of an entity are those of its annotations, and relations behind them. -/
theorem findAll_eq (d : Diagram) (s : AssociationSettings) (e : Ref × Entity) :
    d.findAll s e.1 e.2 = d.tagFindings e ++ (d.typeRelations s e).map .ok := by
  have hown : d.findExplicit e.1 e.2 "" e.2.doc =
      ((e.2.doc.tagsNamed assocTag).map (PlacedTag.mk e.1 e.2 none)).map d.findPlaced :=
    d.findExplicit_eq e.1 e.2 none e.2.doc
  unfold findAll tagFindings placedTags typeRelations
  split
  · rw [hown, List.append_nil, List.map_nil, List.append_nil]
  · have hattributes : (e.2.attributes.flatMap fun m => d.findExplicit e.1 e.2 m.name m.doc) =
        (e.2.attributes.flatMap fun m =>
          (m.doc.tagsNamed assocTag).map (PlacedTag.mk e.1 e.2 (some m))).map d.findPlaced := by
      rw [List.map_flatMap]
      apply List.flatMap_congr
      intro m _
      exact d.findExplicit_eq e.1 e.2 (some m) m.doc
    simp only [hown, hattributes, flatMap_inferTarget, List.map_append]

theorem relations_associate_eq {d : Diagram} (h : d.inferred = false) (s : AssociationSettings) :
    (d.associate s).relations = d.relations ++ d.declared.flatMap fun e =>
      Finding.relations (d.tagFindings e) ++ d.typeRelations s e := by
  rw [associate, if_neg (by simp [h])]
  simp only [relations_flatMap, findAll_eq, relations_append, relations_map_ok]

theorem diagnostics_associate_eq {d : Diagram} (h : d.inferred = false)
    (s : AssociationSettings) :
    (d.associate s).diagnostics = d.diagnostics ++ d.declared.flatMap fun e =>
      Finding.warnings (d.tagFindings e) := by
  rw [associate, if_neg (by simp [h])]
  simp only [Finding.warnings_flatMap, findAll_eq, Finding.warnings_append,
    Finding.warnings_map_ok, List.append_nil]

/-- Inference takes every annotation of every declared entity and settles each with one outcome.
The warnings among the outcomes, in the order of the scan, are all it appends to the diagnostics,
and what it appends to the relations are for each entity the relations among the outcomes and then
those of its types. So relations from annotations and new warnings are together as many as
annotations. -/
theorem associate_outcomes {d : Diagram} (h : d.inferred = false) (s : AssociationSettings) :
    ∃ outcomes : Ref × Entity → List Finding,
      (∀ e ∈ d.declared, List.Forall₂ d.IsOutcome (placedTags e) (outcomes e)) ∧
      (d.associate s).diagnostics =
        d.diagnostics ++ d.declared.flatMap (fun e => Finding.warnings (outcomes e)) ∧
      (d.associate s).relations = d.relations ++ d.declared.flatMap (fun e =>
        Finding.relations (outcomes e) ++ d.typeRelations s e) ∧
      (d.declared.flatMap fun e => Finding.relations (outcomes e)).length +
          (d.associate s).diagnostics.length =
        d.diagnostics.length + (d.declared.flatMap placedTags).length := by
  refine ⟨d.tagFindings, ?_, diagnostics_associate_eq h s, relations_associate_eq h s, ?_⟩
  · intro e _
    exact List.forall₂_map_right_iff.mpr
      (List.forall₂_same.mpr fun p _ => d.isOutcome_findPlaced p)
  · have hscan : (d.declared.flatMap d.tagFindings).length =
        (d.declared.flatMap placedTags).length := by
      simp only [List.length_flatMap, tagFindings, List.length_map]
    have hcount := Finding.length_relations_add_length_warnings (d.declared.flatMap d.tagFindings)
    rw [relations_flatMap, Finding.warnings_flatMap, hscan] at hcount
    rw [diagnostics_associate_eq h, List.length_append]
    omega

/-- A delivery whose annotations name a courier that is declared, one that is only a placeholder,
and a text without a target, and whose attributes carry annotations with and without a role. The
courier opts out and keeps its own annotation only. -/
def delivery : Diagram where
  objects := Table.empty
    |>.insert "Delivery"
      { name := "Delivery"
        doc := { tags := [⟨"assoc", [], "-> by Courier"⟩, ⟨"assoc", [], "-> Depot"⟩,
          ⟨"see", [], "Courier"⟩, ⟨"assoc", [], "->"⟩] }
        content := .classContent
          { attributes :=
              [{ Member.attr "sender" .privateAccess (.named "Customer") with
                  doc := { tags := [⟨"assoc", [], "1 -> Customer"⟩, ⟨"noassoc", [], ""⟩] } },
                .attr "former" .privateAccess (.named "Courier"),
                { Member.attr "receiver" .privateAccess (.named "Customer") with
                  doc := { tags := [⟨"assoc", [], "-> addressee Customer"⟩] } }] } }
    |>.insert "Depot" (.placeholder "Depot")
    |>.insert "Courier"
      { name := "Courier"
        doc := { tags := [⟨"noassoc", [], ""⟩, ⟨"assoc", [], "o-- Customer"⟩] }
        content := .classContent
          { attributes :=
              [{ Member.attr "last" .privateAccess (.named "Delivery") with
                  doc := { tags := [⟨"assoc", [], "-> Delivery"⟩] } }] } }
    |>.insert "Customer" (.ofKind .classKind "Customer" [])
  diagnostics := [unknownTargetWarning (.placeholder "Depot") "Depot"]

theorem associate_outcomes_delivery :
    delivery.inferred = false ∧ ∃ outcomes : Ref × Entity → List Finding,
      (∀ e ∈ delivery.declared, List.Forall₂ delivery.IsOutcome (placedTags e) (outcomes e)) ∧
      (delivery.declared.flatMap fun e =>
        (Finding.warnings (outcomes e)).map fun warning => (warning.code, warning.object)) =
        [(some .e201, some "Delivery"), (some .e200, some "Delivery")] ∧
      (delivery.declared.flatMap fun e =>
        Finding.relations (outcomes e) ++ delivery.typeRelations {} e) =
        [.associate (.registered 0) (.registered 2) { roleB := "by", headB := .directed },
          .associate (.registered 0) (.registered 3)
            { multiplicityA := "1", roleB := "sender", headB := .directed },
          .associate (.registered 0) (.registered 3)
            { roleB := "addressee", headB := .directed },
          .associate (.registered 0) (.registered 2) { roleB := "former" },
          .associate (.registered 2) (.registered 3) { headA := .aggregation }] := by
  obtain ⟨outcomes, hsettled, hwarnings, hrelations, -⟩ :=
    associate_outcomes (d := delivery) rfl {}
  have hnew : delivery.declared.flatMap (fun e => Finding.warnings (outcomes e)) =
      (delivery.associate {}).diagnostics.tail := by
    rw [hwarnings]
    rfl
  refine ⟨rfl, outcomes, hsettled, ?_, hrelations.symm.trans (by decide +kernel)⟩
  rw [← List.map_flatMap, hnew]
  decide +kernel

end Diagram

end ClassDiagram
