import ClassDiagram.Proofs.FirstOccurrence
import ClassDiagram.Proofs.Inference
import Mathlib.Data.List.Basic
import Mathlib.Data.List.Induction

/-!
# The order of inferred associations

The relations that inference appends come entity by entity, and for each
entity in three blocks: its own annotations, those of its attributes, and what
the types of its other attributes use. The third block is grouped by target.
Recording one use after the other in groups that keep their order gives the
same groups as looking up the uses of every target.
-/

namespace ClassDiagram

/-! ## Recording in groups -/

section Grouping

variable {κ α : Type} [DecidableEq κ]

/-- Record a value under a key: behind the values of the key's group, or in a new group at the
end. -/
def record (groups : List (κ × List α)) (use : κ × α) : List (κ × List α) :=
  if use.1 ∈ groups.map Prod.fst then
    groups.map fun g => if g.1 = use.1 then (g.1, g.2 ++ [use.2]) else g
  else groups ++ [(use.1, [use.2])]

/-- Record one use after the other. -/
def recordAll (uses : List (κ × α)) : List (κ × List α) :=
  uses.foldl record []

/-- One group for each key, in the order in which the keys were first used, with all values of
the key in the order of use. -/
structure IsGrouping (uses : List (κ × α)) (groups : List (κ × List α)) : Prop where
  mem_keys : ∀ key, key ∈ groups.map Prod.fst ↔ key ∈ uses.map Prod.fst
  order : (groups.map Prod.fst).Pairwise fun key later =>
    (uses.map Prod.fst).idxOf key < (uses.map Prod.fst).idxOf later
  values : ∀ g ∈ groups, g.2 = (uses.filter (·.1 = g.1)).map Prod.snd

theorem keys_record (groups : List (κ × List α)) (use : κ × α) :
    (record groups use).map Prod.fst =
      if use.1 ∈ groups.map Prod.fst then groups.map Prod.fst
      else groups.map Prod.fst ++ [use.1] := by
  have hfst : Prod.fst ∘ (fun g : κ × List α =>
      if g.1 = use.1 then (g.1, g.2 ++ [use.2]) else g) = Prod.fst := by
    funext g
    simp only [Function.comp_apply]
    split <;> rfl
  unfold record
  split
  · rw [List.map_map, hfst]
  · rw [List.map_append, List.map_singleton]

/-- One more use keeps the groups in order. -/
theorem IsGrouping.record {uses : List (κ × α)} {groups : List (κ × List α)}
    (h : IsGrouping uses groups) (use : κ × α) :
    IsGrouping (uses ++ [use]) (record groups use) where
  mem_keys := by
    intro key
    rw [keys_record, List.map_append, List.mem_append, List.map_singleton, List.mem_singleton,
      ← h.mem_keys]
    split
    · next hm =>
        refine ⟨Or.inl, ?_⟩
        rintro (hk | rfl)
        · exact hk
        · exact hm
    · rw [List.mem_append, List.mem_singleton]
  order := by
    have hold : ∀ key ∈ groups.map Prod.fst,
        ((uses ++ [use]).map Prod.fst).idxOf key = (uses.map Prod.fst).idxOf key := by
      intro key hk
      rw [List.map_append, List.idxOf_append_of_mem ((h.mem_keys key).mp hk)]
    have hpair : (groups.map Prod.fst).Pairwise fun key later =>
        ((uses ++ [use]).map Prod.fst).idxOf key < ((uses ++ [use]).map Prod.fst).idxOf later :=
      h.order.imp_of_mem fun hk hl hlt => by rwa [hold _ hk, hold _ hl]
    rw [keys_record]
    split
    · exact hpair
    · next hm =>
        refine List.pairwise_append.mpr ⟨hpair, List.pairwise_singleton _ _, ?_⟩
        intro key hk later hl
        rw [List.mem_singleton.mp hl, hold key hk, List.map_append,
          List.idxOf_append_of_notMem (fun hu => hm ((h.mem_keys _).mpr hu))]
        exact Nat.lt_add_right _ (List.idxOf_lt_length_of_mem ((h.mem_keys key).mp hk))
  values := by
    intro g hg
    rw [List.filter_append, List.map_append]
    unfold ClassDiagram.record at hg
    split at hg
    · obtain ⟨old, hold, rfl⟩ := List.mem_map.mp hg
      by_cases hk : old.1 = use.1
      · simp [hk, h.values old hold]
      · have hne : ¬ use.1 = old.1 := fun he => hk he.symm
        simp [hk, hne, h.values old hold]
    · next hm =>
        rcases List.mem_append.mp hg with hold | hnew
        · have hne : ¬ use.1 = g.1 := fun he => hm (he ▸ List.mem_map_of_mem hold)
          simp [hne, h.values g hold]
        · obtain rfl := List.mem_singleton.mp hnew
          have hnone : uses.filter (·.1 = use.1) = [] := by
            rw [List.filter_eq_nil_iff]
            intro u hu he
            exact hm ((h.mem_keys _).mpr (of_decide_eq_true he ▸ List.mem_map_of_mem hu))
          simp [hnone]

theorem recordAll_append_singleton (uses : List (κ × α)) (use : κ × α) :
    recordAll (uses ++ [use]) = record (recordAll uses) use := by
  rw [recordAll, List.foldl_append]
  rfl

theorem isGrouping_recordAll (uses : List (κ × α)) : IsGrouping uses (recordAll uses) := by
  induction uses using List.reverseRecOn with
  | nil => exact ⟨fun _ => Iff.rfl, List.Pairwise.nil, nofun⟩
  | append_singleton uses use ih =>
      rw [recordAll_append_singleton]
      exact ih.record use

end Grouping

namespace Diagram

/-! ## Targets and roles -/

theorem targets_append_singleton (ms : List (Ref × String)) (m : Ref × String) :
    targets (ms ++ [m]) = if m.1 ∈ targets ms then targets ms else targets ms ++ [m.1] := by
  simp only [targets, List.map_append, List.map_singleton, eraseDups_append_singleton,
    List.mem_eraseDups]

theorem rolesOf_append_singleton (ms : List (Ref × String)) (m : Ref × String) (target : Ref) :
    rolesOf (ms ++ [m]) target =
      if m.1 = target then rolesOf ms target ++ [m.2] else rolesOf ms target := by
  simp only [rolesOf, List.filter_append, List.map_append]
  split
  · next hm => simp [hm]
  · next hm => simp [hm]

/-- Looking up the roles of each target gives what recording the mentions gives. -/
theorem recordAll_eq (ms : List (Ref × String)) :
    recordAll ms = (targets ms).map fun target => (target, rolesOf ms target) := by
  induction ms using List.reverseRecOn with
  | nil => rfl
  | append_singleton ms m ih =>
      have hkeys : (recordAll ms).map Prod.fst = targets ms := by
        rw [ih, List.map_map]
        exact List.map_id _
      rw [recordAll_append_singleton, targets_append_singleton, record, hkeys, ih]
      split
      · rw [List.map_map]
        apply List.map_congr_left
        intro target _
        simp only [Function.comp_apply, rolesOf_append_singleton, eq_comm (a := m.1)]
        split <;> rfl
      · next hm =>
          have hold : (targets ms).map (fun target => (target, rolesOf (ms ++ [m]) target)) =
              (targets ms).map fun target => (target, rolesOf ms target) := by
            apply List.map_congr_left
            intro target ht
            have hne : ¬ m.1 = target := fun he => hm (he ▸ ht)
            rw [rolesOf_append_singleton, if_neg hne]
          have hnone : rolesOf ms m.1 = [] := by
            rw [rolesOf, List.map_eq_nil_iff, List.filter_eq_nil_iff]
            intro m' hm' he
            have hmem : m'.1 ∈ targets ms := List.mem_eraseDups.mpr (List.mem_map_of_mem hm')
            exact hm (of_decide_eq_true he ▸ hmem)
          rw [List.map_append, hold, List.map_singleton, rolesOf_append_singleton, if_pos rfl,
            hnone, List.nil_append]

/-! ## The relations of annotations -/

/-- The relation of an annotation, if it can be read and its target is declared. -/
def tagRelation? (d : Diagram) (source : Ref) (role : String) (tag : Tag) : Option Relation :=
  match Annotation.read tag.value with
  | .error _ => none
  | .ok annotation =>
    (d.lookupDeclared annotation.target).map fun target =>
      .associate source target (withDefaultRoleB annotation.association role)

/-- The relations of the annotations in a comment, in order; `role` is the label of far ends that
are left without one. -/
def tagRelations (d : Diagram) (source : Ref) (role : String) (doc : Comment) : List Relation :=
  (doc.tags.filter (·.name = assocTag)).filterMap (d.tagRelation? source role)

theorem tagRelation?_eq (d : Diagram) (source : Ref) (owner : Entity) (role : String) (tag : Tag) :
    (d.findTag source owner role tag).toOption = d.tagRelation? source role tag := by
  cases hr : Annotation.read tag.value with
  | error e => simp [findTag, tagRelation?, hr, Except.toOption]
  | ok annotation =>
      cases hl : d.lookupDeclared annotation.target with
      | none => simp [findTag, tagRelation?, hr, hl, Except.toOption]
      | some target => simp [findTag, tagRelation?, hr, hl, Except.toOption]

theorem relations_findExplicit (d : Diagram) (source : Ref) (owner : Entity) (role : String)
    (doc : Comment) :
    Finding.relations (d.findExplicit source owner role doc) = d.tagRelations source role doc := by
  rw [Finding.relations, findExplicit, List.filterMap_map, tagRelations, Comment.tagsNamed]
  apply List.filterMap_congr
  intro tag _
  rw [← tagRelation?_eq d source owner, Function.comp_apply]
  cases d.findTag source owner role tag <;> rfl

/-! ## The relations of attribute types -/

/-- The declared entities that the type of an attribute names, each with the name of the
attribute as the role. An attribute with an annotation or with `@noassoc` uses none. -/
def usesOf (d : Diagram) (m : Member) : List (Ref × String) :=
  if m.doc.hasTag assocTag ∨ m.doc.hasTag noAssocTag then []
  else
    match m.type? with
    | none => []
    | some type => (type.names.filterMap d.lookupDeclared).map fun target => (target, m.name)

/-- The uses of all attributes of an entity. -/
def uses (d : Diagram) (owner : Entity) : List (Ref × String) :=
  owner.attributes.flatMap d.usesOf

/-- The relations of one target: with merging a single one with all roles, or with none if there
are more than the settings allow, and one for each role otherwise. They have no label but the role
at the far end. -/
def groupRelations (s : AssociationSettings) (source : Ref) (g : Ref × List String) :
    List Relation :=
  if s.merge then
    [⟨.ref source, .ref g.1, .association
      { roleB :=
          if s.maxRoles < 0 ∨ (g.2.length : Int) ≤ s.maxRoles then ", ".intercalate g.2 else "" }⟩]
  else g.2.map fun role => ⟨.ref source, .ref g.1, .association { roleB := role }⟩

theorem mentions_inferring (d : Diagram) (owner : Entity) :
    d.mentions (inferring owner) = d.uses owner := by
  simp only [mentions, inferring, uses]
  induction owner.attributes with
  | nil => rfl
  | cons m rest ih =>
      rw [List.filter_cons, List.flatMap_cons, ← ih]
      by_cases hskip : m.doc.hasTag assocTag = true ∨ m.doc.hasTag noAssocTag = true
      · have hfalse : (!m.doc.hasTag assocTag && !m.doc.hasTag noAssocTag) = false := by
          rcases hskip with h | h <;> simp [h]
        rw [if_neg (by simp [hfalse]), usesOf, if_pos hskip, List.nil_append]
      · have htrue : (!m.doc.hasTag assocTag && !m.doc.hasTag noAssocTag) = true := by
          simpa [not_or] using hskip
        rw [if_pos htrue, List.flatMap_cons, usesOf, if_neg hskip]
        congr 1
        cases m.type? with
        | none => rfl
        | some type => simp only [List.map_filterMap]

theorem inferTarget_eq (s : AssociationSettings) (source : Ref) (ms : List (Ref × String))
    (target : Ref) :
    inferTarget s source ms target = groupRelations s source (target, rolesOf ms target) := by
  cases hm : s.merge with
  | true =>
      simp [inferTarget, groupRelations, hm, mergedLabel, AssociationSettings.allowsRoles,
        Relation.associate, Association.ofRoleB]
  | false =>
      simp [inferTarget, groupRelations, hm, Relation.associate, Association.ofRoleB]

/-- The relations of the targets that an entity uses, group by group. -/
theorem flatMap_inferTarget (d : Diagram) (s : AssociationSettings) (source : Ref)
    (owner : Entity) :
    (targets (d.mentions (inferring owner))).flatMap
        (inferTarget s source (d.mentions (inferring owner))) =
      (recordAll (d.uses owner)).flatMap (groupRelations s source) := by
  rw [mentions_inferring, recordAll_eq, List.flatMap_map]
  apply List.flatMap_congr
  intro target _
  exact inferTarget_eq s source (d.uses owner) target

/-! ## The relations of a diagram -/

theorem relations_append (findings more : List Finding) :
    Finding.relations (findings ++ more) =
      Finding.relations findings ++ Finding.relations more :=
  List.filterMap_append

theorem relations_flatMap {β : Type} (f : β → List Finding) (xs : List β) :
    Finding.relations (xs.flatMap f) = xs.flatMap fun x => Finding.relations (f x) := by
  induction xs with
  | nil => rfl
  | cons x rest ih => rw [List.flatMap_cons, relations_append, ih, List.flatMap_cons]

theorem relations_map_ok (rs : List Relation) :
    Finding.relations (rs.map .ok) = rs := by
  induction rs with
  | nil => rfl
  | cons r rest ih =>
      change r :: Finding.relations (rest.map .ok) = r :: rest
      rw [ih]

/-- The relations of one declared entity. -/
theorem relations_findAll (d : Diagram) (s : AssociationSettings) (source : Ref) (owner : Entity) :
    Finding.relations (d.findAll s source owner) =
      d.tagRelations source "" owner.doc ++
        if owner.doc.hasTag noAssocTag then []
        else
          owner.attributes.flatMap (fun m => d.tagRelations source m.name m.doc) ++
            (recordAll (d.uses owner)).flatMap (groupRelations s source) := by
  unfold findAll
  split
  · rw [relations_findExplicit, List.append_nil]
  · rw [relations_append, relations_append, relations_flatMap, relations_map_ok,
      flatMap_inferTarget, List.append_assoc]
    simp only [relations_findExplicit]

/-- Inference appends, for one declared entity after the other, the relations of its annotations,
then those of the annotations of its attributes, and then those of the targets that its other
attributes use, which are grouped in the order of first use. `@noassoc` on an entity leaves only
the first of the three. -/
theorem relations_associate {d : Diagram} (h : d.inferred = false) (s : AssociationSettings) :
    (d.associate s).relations = d.relations ++ d.declared.flatMap (fun e =>
        d.tagRelations e.1 "" e.2.doc ++
          if e.2.doc.hasTag noAssocTag then []
          else
            e.2.attributes.flatMap (fun m => d.tagRelations e.1 m.name m.doc) ++
              (recordAll (d.uses e.2)).flatMap (groupRelations s e.1)) ∧
      ∀ owner, IsGrouping (d.uses owner) (recordAll (d.uses owner)) := by
  constructor
  · have hd : ¬ d.inferred = true := by simp [h]
    rw [associate, if_neg hd]
    simp only [relations_flatMap, relations_findAll]
  · intro owner
    exact isGrouping_recordAll (d.uses owner)

/-- An order that names its customer twice, itself once and a placeholder, with annotations on the
order and on one attribute, and a customer that opts out. -/
def purchase : Diagram where
  objects := Table.empty
    |>.insert "Order"
      { name := "Order"
        doc := { tags := [⟨"assoc", [], "1 -> * items Item"⟩] }
        content := .classContent
          { attributes :=
              [.attr "payer" .privateAccess (.named "Customer"),
                .attr "parts" .privateAccess (.source "Map<Order, List<Customer>>"),
                { Member.attr "old" .privateAccess (.named "Item") with
                  doc := { tags := [⟨"noassoc", [], ""⟩] } },
                { Member.attr "item" .privateAccess (.named "Item") with
                  doc := { tags := [⟨"assoc", [], "main o-- Item"⟩] } },
                .attr "receiver" .privateAccess (.named "Customer"),
                .attr "draft" .privateAccess (.named "Draft")] } }
    |>.insert "Draft" (.placeholder "Draft")
    |>.insert "Customer"
      { name := "Customer"
        doc := { tags := [⟨"noassoc", [], ""⟩] }
        content := .classContent
          { attributes := [.attr "last" .privateAccess (.named "Order")] } }
    |>.insert "Item" (.ofKind .classKind "Item" [])
  relations := [⟨.ref (.registered 0), .ref (.registered 3), .inheritance⟩]

theorem relations_associate_purchase :
    purchase.inferred = false ∧
      (purchase.associate { maxRoles := 2 }).relations =
        [⟨.ref (.registered 0), .ref (.registered 3), .inheritance⟩,
          .associate (.registered 0) (.registered 3)
            { multiplicityA := "1", multiplicityB := "*", roleB := "items", headB := .directed },
          .associate (.registered 0) (.registered 3)
            { roleA := "main", roleB := "item", headA := .aggregation },
          .associate (.registered 0) (.registered 2) { roleB := "" },
          .associate (.registered 0) (.registered 0) { roleB := "parts" }] :=
  ⟨rfl, (relations_associate rfl _).1.trans (by decide +kernel)⟩

end Diagram

end ClassDiagram
