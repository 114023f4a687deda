import ClassDiagram.Proofs.AccessorEffect
import ClassDiagram.Proofs.ResolutionEffect

/-!
# Runs only extend a diagram

A pass may put relations, stubs, diagnostics and accessors behind those that
are there, turn bare names at ends into references and set flags, each of them
only if that is its task. All else stays where it is. What several passes may
do is what each of them may do, so the same holds of a run, whichever passes
the settings ask for.
-/

namespace ClassDiagram

/-- Related lists compose as their elements do. -/
theorem forall₂_comp {α β γ : Type} {R : α → β → Prop} {S : β → γ → Prop} {T : α → γ → Prop}
    (h : ∀ a b c, R a b → S b c → T a c) {as : List α} {bs : List β} {cs : List γ}
    (hab : List.Forall₂ R as bs) (hbc : List.Forall₂ S bs cs) : List.Forall₂ T as cs := by
  induction hab generalizing cs with
  | nil =>
      cases hbc
      exact .nil
  | cons hr _ ih =>
      cases hbc with
      | cons hs hrest => exact .cons (h _ _ _ hr hs) (ih hrest)

namespace Table

variable {α β γ : Type}

theorem Related.comp {R : α → β → Prop} {S : β → γ → Prop} {T : α → γ → Prop}
    (h : ∀ a b c, R a b → S b c → T a c) {t : Table α} {u : Table β} {v : Table γ}
    (htu : t.Related R u) (huv : u.Related S v) : t.Related T v :=
  forall₂_comp (fun _ _ _ hr hs => ⟨hs.1.trans hr.1, h _ _ _ hr.2 hs.2⟩) htu huv

theorem related_self {R : α → α → Prop} (h : ∀ value, R value value) (t : Table α) :
    t.Related R t :=
  List.forall₂_same.mpr fun entry _ => ⟨rfl, h entry.2⟩

theorem Related.keys {R : α → β → Prop} {t : Table α} {u : Table β} (h : t.Related R u) :
    u.keys = t.keys := by
  have hkeys : List.Forall₂ (· = ·) t.keys u.keys := by
    rw [Table.keys, Table.keys, List.forall₂_map_left_iff, List.forall₂_map_right_iff]
    exact List.Forall₂.imp (fun _ _ hentry => hentry.1.symm) h
  rw [List.forall₂_eq_eq_eq] at hkeys
  exact hkeys.symm

end Table

/-! ## What becomes of an entity -/

/-- Documentation asks for a flag by a tag. -/
def Comment.AsksForFlag (c : Comment) : Prop :=
  ∃ tag ∈ c.tags, tag.name = "important"

instance (c : Comment) : Decidable c.AsksForFlag :=
  inferInstanceAs (Decidable (∃ tag ∈ c.tags, tag.name = "important"))

theorem Comment.hasTag_importantTag (c : Comment) :
    c.hasTag importantTag = decide c.AsksForFlag := by
  rw [Bool.eq_iff_iff, decide_eq_true_eq]
  exact hasTag_iff

namespace Member

/-- The member with the flag that its documentation asks for, if flags are heeded. -/
def heed (importance : Bool) (m : Member) : Member :=
  { m with important := m.important || (importance && m.doc.AsksForFlag) }

theorem heed_true (m : Member) : m.heed true = m.markImportant := by
  rw [heed, markImportant, Comment.hasTag_importantTag, Bool.true_and]

theorem map_heed_false (ms : List Member) : ms.map (·.heed false) = ms := by
  simp [heed]

/-- Of several passes it matters whether one of them heeds flags. -/
theorem map_heed_heed (importance importance' : Bool) (ms : List Member) :
    (ms.map (·.heed importance)).map (·.heed importance') =
      ms.map (·.heed (importance || importance')) := by
  rw [List.map_map]
  apply List.map_congr_left
  intro m _
  simp [heed, Bool.and_or_distrib_right, Bool.or_assoc]

/-- What is generated has no documentation that could ask for a flag. -/
theorem IsGenerated.heed {a : Member} {type : TypeExpr} (h : a.IsGenerated type)
    (importance : Bool) : a.heed importance = a := by
  have htag : ¬ a.doc.AsksForFlag := by
    rw [h.doc]
    rintro ⟨tag, hmem, -⟩
    cases hmem
  simp [Member.heed, htag]

end Member

namespace Entity

/-- An entity after passes that may or may not add accessors and may or may not heed flags. Old
members stay in their places but for the flags, and behind the methods there may be accessors. -/
structure ExtendsTo (getters importance : Bool) (e e' : Entity) : Prop
    extends SameHeader e e' where
  important : e'.important = (e.important || (importance && e.doc.AsksForFlag))
  attributes : e'.attributes = e.attributes.map (·.heed importance)
  constructors : e'.constructors = e.constructors.map (·.heed importance)
  constants : e'.constants = e.constants.map (·.heed importance)
  methods : ∃ added, e'.methods = e.methods.map (·.heed importance) ++ added ∧
    (∀ a ∈ added, e.Accesses a) ∧ (getters = false → added = [])

variable {getters getters' importance importance' : Bool} {e e' e'' : Entity}

theorem Accesses.heed {a : Member} (h : e.Accesses a) (importance : Bool) :
    a.heed importance = a := by
  obtain ⟨_, _, _, _, hg⟩ := h
  exact hg.heed importance

/-- Flags do not change which attribute a method is generated for. -/
theorem accesses_of_attributes_eq_map {a : Member}
    (h : e'.attributes = e.attributes.map (·.heed importance)) (ha : e'.Accesses a) :
    e.Accesses a := by
  obtain ⟨m', type, hfind, ht, hg⟩ := ha
  rw [h, List.find?_map] at hfind
  obtain ⟨m, hm, rfl⟩ := Option.map_eq_some_iff.mp hfind
  exact ⟨m, type, hm, ht, hg⟩

theorem extendsTo_self (e : Entity) : e.ExtendsTo false false e where
  toSameHeader := .refl e
  important := (Bool.or_false e.important).symm
  attributes := (Member.map_heed_false _).symm
  constructors := (Member.map_heed_false _).symm
  constants := (Member.map_heed_false _).symm
  methods := ⟨[], by rw [Member.map_heed_false, List.append_nil], nofun, fun _ => rfl⟩

theorem extendsTo_extended (e : Entity) : e.ExtendsTo true false e.extended where
  toSameHeader := sameHeader_extended e
  important := (Bool.or_false e.important).symm
  attributes := by rw [Member.map_heed_false, attributes_extended]
  constructors := by rw [Member.map_heed_false, constructors_extended]
  constants := by rw [Member.map_heed_false, constants_extended]
  methods := ⟨e.missingAccessors, by rw [Member.map_heed_false, methods_extended],
    fun _ ha => (accesses_of_mem_missingAccessors ha).2, nofun⟩

theorem extendsTo_markImportant (e : Entity) : e.ExtendsTo false true e.markImportant where
  name := rfl
  package := rfl
  doc := rfl
  stereotypes := rfl
  generics := rfl
  kind := kind_markImportant e
  isAbstract? := isAbstract?_mapMembers Member.markImportant e
  important := congrArg (e.important || ·) (Comment.hasTag_importantTag e.doc)
  attributes := by
    simp only [Member.heed_true]
    exact attributes_mapMembers Member.markImportant e
  constructors := by
    simp only [Member.heed_true]
    exact constructors_mapMembers Member.markImportant e
  constants := by
    simp only [Member.heed_true]
    exact constants_mapMembers Member.markImportant e
  methods := by
    refine ⟨[], ?_, nofun, fun _ => rfl⟩
    simp only [Member.heed_true, List.append_nil]
    exact methods_mapMembers Member.markImportant e

theorem ExtendsTo.trans (h : e.ExtendsTo getters importance e')
    (h' : e'.ExtendsTo getters' importance' e'') :
    e.ExtendsTo (getters || getters') (importance || importance') e'' where
  toSameHeader := h.toSameHeader.trans h'.toSameHeader
  important := by
    rw [h'.important, h.important, h.doc, Bool.and_or_distrib_right, Bool.or_assoc]
  attributes := by rw [h'.attributes, h.attributes, Member.map_heed_heed]
  constructors := by rw [h'.constructors, h.constructors, Member.map_heed_heed]
  constants := by rw [h'.constants, h.constants, Member.map_heed_heed]
  methods := by
    obtain ⟨added, hm, hadded, hnone⟩ := h.methods
    obtain ⟨added', hm', hadded', hnone'⟩ := h'.methods
    refine ⟨added ++ added', ?_, ?_, ?_⟩
    · have hkept : added.map (·.heed importance') = added :=
        (List.map_congr_left fun a ha => (hadded a ha).heed importance').trans (List.map_id _)
      rw [hm', hm, List.map_append, hkept, Member.map_heed_heed, List.append_assoc]
    · intro a ha
      rcases List.mem_append.mp ha with hfirst | hsecond
      · exact hadded a hfirst
      · exact accesses_of_attributes_eq_map h.attributes (hadded' a hsecond)
    · intro hg
      obtain ⟨hg, hg'⟩ := Bool.or_eq_false_iff.mp hg
      rw [hnone hg, hnone' hg', List.append_nil]

end Entity

/-! ## What becomes of a diagram -/

namespace Diagram

/-- What may become of an end: a bare name may become a reference to what is stored under it. -/
inductive KeepsOrRefers (d : Diagram) : Endpoint → Endpoint → Prop
  | kept (e : Endpoint) : KeepsOrRefers d e e
  | refers {name : String} {ref : Ref} (h : d.key? ref = some name) :
      KeepsOrRefers d (.name name) (.ref ref)

/-- A diagram after passes that may or may not add accessors and may or may not heed flags. -/
structure ExtendsTo (getters importance : Bool) (d d' : Diagram) : Prop where
  objects : d.objects.Related (Entity.ExtendsTo getters importance) d'.objects
  relations : ∃ settled added, d'.relations = settled ++ added ∧
    List.Forall₂ (Relation.Follows d'.KeepsOrRefers) d.relations settled
  stubs : d.stubs.entries <+: d'.stubs.entries
  diagnostics : d.diagnostics <+: d'.diagnostics

variable {getters getters' importance importance' : Bool} {d d' d'' : Diagram}

/-- References keep the keys that they refer to. -/
theorem ExtendsTo.key? (h : d.ExtendsTo getters importance d') {ref : Ref} {key : String}
    (hk : d.key? ref = some key) : d'.key? ref = some key := by
  cases ref with
  | registered index =>
      have hkeys : d.objects.keys <+: d'.objects.keys := by
        rw [h.objects.keys]
      exact Table.key?_of_isPrefix hkeys hk
  | stub index => exact Table.key?_of_isPrefix (h.stubs.map Prod.fst) hk

theorem ExtendsTo.follows (h : d'.ExtendsTo getters importance d'') {rs rs' rs'' : List Relation}
    (hrs : List.Forall₂ (Relation.Follows d'.KeepsOrRefers) rs rs')
    (hrs' : List.Forall₂ (Relation.Follows d''.KeepsOrRefers) rs' rs'') :
    List.Forall₂ (Relation.Follows d''.KeepsOrRefers) rs rs'' := by
  have hend {e e' e'' : Endpoint} (he : d'.KeepsOrRefers e e') (he' : d''.KeepsOrRefers e' e'') :
      d''.KeepsOrRefers e e'' := by
    cases he with
    | kept => exact he'
    | refers hk =>
        cases he' with
        | kept => exact .refers (h.key? hk)
  refine forall₂_comp ?_ hrs hrs'
  rintro r r' r'' ⟨hk, ha, hb⟩ ⟨hk', ha', hb'⟩
  exact ⟨hk'.trans hk, hend ha ha', hend hb hb'⟩

theorem follows_self (d : Diagram) (rs : List Relation) :
    List.Forall₂ (Relation.Follows d.KeepsOrRefers) rs rs :=
  List.forall₂_same.mpr fun r _ => ⟨rfl, .kept r.a, .kept r.b⟩

theorem ExtendsTo.trans (h : d.ExtendsTo getters importance d')
    (h' : d'.ExtendsTo getters' importance' d'') :
    d.ExtendsTo (getters || getters') (importance || importance') d'' where
  objects := h.objects.comp (fun _ _ _ he he' => he.trans he') h'.objects
  relations := by
    obtain ⟨settled, added, hr, hs⟩ := h.relations
    obtain ⟨settled', added', hr', hs'⟩ := h'.relations
    rw [hr] at hs'
    -- what the second step makes of the old relations, and of those that the first step added
    obtain ⟨old, new, hsplit, hold⟩ : ∃ old new, settled' = old ++ new ∧
        List.Forall₂ (Relation.Follows d''.KeepsOrRefers) settled old :=
      ⟨settled'.take settled.length, settled'.drop settled.length,
        (List.take_append_drop _ _).symm, by simpa using List.forall₂_take settled.length hs'⟩
    refine ⟨old, new ++ added', ?_, h'.follows hs hold⟩
    rw [hr', hsplit, List.append_assoc]
  stubs := h.stubs.trans h'.stubs
  diagnostics := h.diagnostics.trans h'.diagnostics

theorem extendsTo_self (d : Diagram) : d.ExtendsTo false false d where
  objects := Table.related_self Entity.extendsTo_self d.objects
  relations := ⟨d.relations, [], (List.append_nil _).symm, follows_self d d.relations⟩
  stubs := List.prefix_refl _
  diagnostics := List.prefix_refl _

/-! ## The passes -/

theorem keepsOrRefers_of_resolves {e e' : Endpoint} (h : d.Resolves d.resolve.stubs e e') :
    d.resolve.KeepsOrRefers e e' := by
  cases h with
  | kept ref => exact .kept _
  | declared hd =>
      obtain ⟨index, _, rfl⟩ := Option.map_eq_some_iff.mp hd
      exact .refers (key?_of_lookupDeclared hd)
  | stubbed _ hs => exact .refers hs

theorem extendsTo_resolve (d : Diagram) : d.ExtendsTo false false d.resolve where
  objects := Table.related_self Entity.extendsTo_self d.objects
  relations := ⟨d.resolve.relations, [], (List.append_nil _).symm,
    Relation.follows_mapEnds fun _ he => keepsOrRefers_of_resolves (resolves_link he)⟩
  stubs := by
    obtain ⟨added, hstubs, _⟩ := exists_entries_stubs_resolve d
    rw [hstubs]
    exact List.prefix_append _ _
  diagnostics := List.prefix_append _ _

theorem extendsTo_associate (d : Diagram) (s : AssociationSettings) :
    d.ExtendsTo false false (d.associate s) := by
  obtain ⟨added, warnings, h, _⟩ := associate_eq d s
  rw [h]
  exact {
    objects := Table.related_self Entity.extendsTo_self d.objects
    relations := ⟨d.relations, added, rfl, follows_self _ d.relations⟩
    stubs := List.prefix_refl _
    diagnostics := List.prefix_append _ _ }

theorem extendsTo_mapObjects {f : Entity → Entity}
    (h : ∀ e, Entity.ExtendsTo getters importance e (f e)) (d : Diagram) :
    d.ExtendsTo getters importance (d.mapObjects f) where
  objects := Table.related_map h d.objects
  relations := ⟨d.relations, [], (List.append_nil _).symm, follows_self _ d.relations⟩
  stubs := List.prefix_refl _
  diagnostics := List.prefix_refl _

end Diagram

namespace Pass

/-- Each pass extends a diagram. Only one of them adds accessors and only one heeds flags. -/
theorem extendsTo_act (s : AssociationSettings) (d : Diagram) (p : Pass) :
    d.ExtendsTo (accessors == p) (importance == p) (p.act s d) := by
  cases p with
  | resolve => exact Diagram.extendsTo_resolve d
  | associate => exact Diagram.extendsTo_associate d s
  | accessors => exact Diagram.extendsTo_mapObjects Entity.extendsTo_extended d
  | importance => exact Diagram.extendsTo_mapObjects Entity.extendsTo_markImportant d

/-- Passes in any order extend a diagram, as far as they are among them. -/
theorem extendsTo_actAll (s : AssociationSettings) (order : List Pass) (d : Diagram) :
    d.ExtendsTo (order.contains accessors) (order.contains importance) (actAll s order d) := by
  induction order generalizing d with
  | nil => exact Diagram.extendsTo_self d
  | cons p rest ih =>
      rw [List.contains_cons, List.contains_cons]
      exact (extendsTo_act s d p).trans (ih (p.act s d))

end Pass

theorem Settings.contains_passes (s : Settings) (p : Pass) : s.passes.contains p = s.wants p := by
  have hall : p ∈ Pass.all := by cases p <;> decide
  rw [passes, Bool.eq_iff_iff, List.contains_iff_mem, List.mem_filter, and_iff_right hall]

namespace Diagram

/-- A run only extends a diagram. The entities keep their keys and places, what they are and which
members they have; accessors follow the old methods if the settings ask for them, and flags are
set where the documentation asks for them if the settings heed that. Relations keep their kinds
and payloads, and their ends change from bare names to references at most. Whatever is new comes
behind what was there. -/
theorem run_extends (s : Settings) (d : Diagram) :
    ∃ d' reported, d.run s = .ok (d', reported) ∧ d.ExtendsTo s.getters s.importance d' := by
  refine ⟨d.outcome s, _, run_eq s d, ?_⟩
  have houtcome : Pass.actAll s.association s.passes d = d.outcome s := by
    have h := run_eq_applyAll s d
    rw [run_eq, Pass.applyAll_eq] at h
    exact (Except.ok.inj h).symm
  have h := Pass.extendsTo_actAll s.association s.passes d
  rw [s.contains_passes, s.contains_passes, houtcome] at h
  exact h

end Diagram

end ClassDiagram
