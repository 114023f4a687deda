import ClassDiagram.Diagram.Inference
import ClassDiagram.Proofs.Growth

/-!
# What inference adds

Inference leaves both tables alone. It sets the mark, appends warnings, and
appends relations that lead from the declared entity at hand to a declared
entity, so the new ends are references from the start.
-/

namespace ClassDiagram

theorem Finding.mem_relations_iff {findings : List Finding} {r : Relation} :
    r ∈ Finding.relations findings ↔ Except.ok r ∈ findings := by
  rw [Finding.relations, List.mem_filterMap]
  constructor
  · rintro ⟨f, hf, hr⟩
    cases f with
    | error warning => cases hr
    | ok r' =>
        rw [← Option.some.inj hr]
        exact hf
  · intro h
    exact ⟨.ok r, h, rfl⟩

namespace Diagram

/-- A relation from the source to what a declared name refers to. -/
def LeadsToDeclared (d : Diagram) (source : Ref) (r : Relation) : Prop :=
  ∃ name target association, d.lookupDeclared name = some target ∧
    r = .associate source target association

/-! ## Findings of one entity -/

theorem leadsToDeclared_of_findTag {d : Diagram} {source : Ref} {owner : Entity} {role : String}
    {tag : Tag} {r : Relation} (h : d.findTag source owner role tag = .ok r) :
    d.LeadsToDeclared source r := by
  unfold findTag at h
  split at h
  · cases h
  · next reading _ =>
      split at h
      · cases h
      · next target ht =>
          exact ⟨reading.target, target, _, ht, (Except.ok.inj h).symm⟩

theorem leadsToDeclared_of_findExplicit {d : Diagram} {source : Ref} {owner : Entity}
    {role : String} {doc : Comment} {r : Relation}
    (h : Except.ok r ∈ d.findExplicit source owner role doc) : d.LeadsToDeclared source r := by
  obtain ⟨tag, _, ht⟩ := List.mem_map.mp h
  exact leadsToDeclared_of_findTag ht

theorem lookupDeclared_of_mem_mentions {d : Diagram} {attributes : List Member}
    {mention : Ref × String} (h : mention ∈ d.mentions attributes) :
    ∃ name, d.lookupDeclared name = some mention.1 := by
  obtain ⟨m, _, hm⟩ := List.mem_flatMap.mp h
  cases ht : m.type? with
  | none => rw [ht] at hm; cases hm
  | some type =>
      rw [ht] at hm
      obtain ⟨name, _, hn⟩ := List.mem_filterMap.mp hm
      obtain ⟨target, htarget, rfl⟩ := Option.map_eq_some_iff.mp hn
      exact ⟨name, htarget⟩

theorem leadsToDeclared_of_inferTarget {d : Diagram} {s : AssociationSettings} {source : Ref}
    {attributes : List Member} {target : Ref} {r : Relation}
    (ht : target ∈ targets (d.mentions attributes))
    (h : r ∈ inferTarget s source (d.mentions attributes) target) :
    d.LeadsToDeclared source r := by
  obtain ⟨mention, hm, rfl⟩ := List.mem_map.mp (List.mem_eraseDups.mp ht)
  obtain ⟨name, hn⟩ := lookupDeclared_of_mem_mentions hm
  obtain ⟨label, _, rfl⟩ := List.mem_map.mp h
  exact ⟨name, mention.1, _, hn, rfl⟩

theorem leadsToDeclared_of_findAll {d : Diagram} {s : AssociationSettings} {source : Ref}
    {owner : Entity} {r : Relation} (h : Except.ok r ∈ d.findAll s source owner) :
    d.LeadsToDeclared source r := by
  unfold findAll at h
  split at h
  · exact leadsToDeclared_of_findExplicit h
  · rw [List.mem_append, List.mem_append] at h
    rcases h with (hown | hannotated) | hinferred
    · exact leadsToDeclared_of_findExplicit hown
    · obtain ⟨m, _, hm⟩ := List.mem_flatMap.mp hannotated
      exact leadsToDeclared_of_findExplicit hm
    · obtain ⟨r', hr', he⟩ := List.mem_map.mp hinferred
      obtain ⟨target, ht, hmem⟩ := List.mem_flatMap.mp hr'
      rw [← Except.ok.inj he]
      exact leadsToDeclared_of_inferTarget ht hmem

/-! ## The pass -/

theorem entity?_of_mem_declared {d : Diagram} {source : Ref} {owner : Entity}
    (h : (source, owner) ∈ d.declared) : d.entity? source = some owner := by
  obtain ⟨⟨e, index⟩, hm, he⟩ := List.mem_map.mp (List.mem_filter.mp h).1
  obtain ⟨rfl, rfl⟩ := Prod.mk.inj he
  exact List.mk_mem_zipIdx_iff_getElem?.mp hm

/-- The pass appends to the relations and the diagnostics and sets the mark; the new relations
lead from an entity of the diagram to a declared one. -/
theorem associate_eq (d : Diagram) (s : AssociationSettings) :
    ∃ added warnings,
      d.associate s = { d with
        relations := d.relations ++ added
        diagnostics := d.diagnostics ++ warnings
        inferred := true } ∧
      ∀ r ∈ added, ∃ source owner, d.entity? source = some owner ∧ d.LeadsToDeclared source r := by
  unfold associate
  split
  · next hi =>
      refine ⟨[], [], ?_, by simp⟩
      simp [← hi]
  · refine ⟨_, _, rfl, ?_⟩
    intro r hr
    obtain ⟨⟨source, owner⟩, hd, hf⟩ := List.mem_flatMap.mp (Finding.mem_relations_iff.mp hr)
    exact ⟨source, owner, entity?_of_mem_declared hd, leadsToDeclared_of_findAll hf⟩

theorem associate_of_inferred {d : Diagram} (h : d.inferred = true) (s : AssociationSettings) :
    d.associate s = d := by
  rw [associate, if_pos h]

theorem objects_associate (d : Diagram) (s : AssociationSettings) :
    (d.associate s).objects = d.objects := by
  obtain ⟨_, _, h, _⟩ := associate_eq d s
  rw [h]

theorem stubs_associate (d : Diagram) (s : AssociationSettings) :
    (d.associate s).stubs = d.stubs := by
  obtain ⟨_, _, h, _⟩ := associate_eq d s
  rw [h]

theorem inferred_associate (d : Diagram) (s : AssociationSettings) :
    (d.associate s).inferred = true := by
  obtain ⟨_, _, h, _⟩ := associate_eq d s
  rw [h]

theorem diagnostics_prefix_associate (d : Diagram) (s : AssociationSettings) :
    d.diagnostics <+: (d.associate s).diagnostics := by
  obtain ⟨_, warnings, h, _⟩ := associate_eq d s
  rw [h]
  exact List.prefix_append _ _

/-- Inference adds no bare names. -/
theorem isResolved_associate {d : Diagram} (hd : d.isResolved = true) (s : AssociationSettings) :
    (d.associate s).isResolved = true := by
  obtain ⟨added, _, h, hadded⟩ := associate_eq d s
  have hnew : added.all (·.isResolved) = true := by
    rw [List.all_eq_true]
    intro r hr
    obtain ⟨_, _, _, _, _, _, _, rfl⟩ := hadded r hr
    rfl
  rw [h]
  simpa only [isResolved, List.all_append, hnew, Bool.and_true] using hd

/-- Inference adds no dangling references. -/
theorem closed_associate {d : Diagram} (hd : d.Closed) (s : AssociationSettings) :
    (d.associate s).Closed := by
  obtain ⟨added, _, h, hadded⟩ := associate_eq d s
  rw [h]
  intro e he ref hr
  rw [endpoints, List.flatMap_append, List.mem_append] at he
  rcases he with hold | hnew
  · exact hd e hold ref hr
  · obtain ⟨r, hmem, hend⟩ := List.mem_flatMap.mp hnew
    obtain ⟨source, owner, howner, name, target, _, ht, rfl⟩ := hadded r hmem
    have hs : (d.entity? source).isSome = true := by rw [howner, Option.isSome_some]
    have htarget : (d.entity? target).isSome = true :=
      (isSome_entity?_iff d target).mpr ⟨name, key?_of_lookupDeclared ht⟩
    simp only [Relation.associate, Relation.ends, List.mem_cons, List.not_mem_nil, or_false] at hend
    rcases hend with rfl | rfl
    · rw [← Option.some.inj hr]
      exact hs
    · rw [← Option.some.inj hr]
      exact htarget

end Diagram

end ClassDiagram
