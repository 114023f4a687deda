import ClassDiagram.Proofs.FusionOrder

/-!
# Fusing the same diagram again

What has been merged once is absorbed: merging it again finds every signature,
every stereotype and every flag in place, and every empty field filled as far
as it can fill it. This holds at each level, from lists of members up to whole
tables. A second fusion therefore meets the table that the first one made, so
it carries the relations over to the same ends as before.
-/

namespace ClassDiagram

/-! ## Lists and contents -/

section UniteBy

variable {α : Type} (key : α → String)

theorem uniteBy_of_forall_mem {present incoming : List α}
    (h : ∀ new ∈ incoming, key new ∈ present.map key) :
    uniteBy key present incoming = present := by
  induction incoming with
  | nil => rfl
  | cons new rest ih =>
      change uniteBy key (addBy key present new) rest = present
      rw [addBy_of_mem key (h new List.mem_cons_self)]
      exact ih fun later hl => h later (List.mem_cons_of_mem _ hl)

theorem uniteBy_self (present : List α) : uniteBy key present present = present :=
  uniteBy_of_forall_mem key fun _ hm => List.mem_map_of_mem hm

/-- A list that has been united with another one holds all keys of the other, also those that
the other repeats. -/
theorem uniteBy_uniteBy_self (present incoming : List α) :
    uniteBy key (uniteBy key present incoming) incoming = uniteBy key present incoming := by
  apply uniteBy_of_forall_mem
  intro new hm
  apply (mem_map_uniteBy key present incoming (key new)).mpr
  exact Or.inr (List.mem_map_of_mem hm)

end UniteBy

theorem uniteMembers_self (present : List Member) : uniteMembers present present = present :=
  uniteBy_self Member.signature present

theorem uniteMembers_uniteMembers_self (present incoming : List Member) :
    uniteMembers (uniteMembers present incoming) incoming = uniteMembers present incoming :=
  uniteBy_uniteBy_self Member.signature present incoming

theorem uniteTexts_self (present : List String) : uniteTexts present present = present := by
  rw [uniteTexts_eq_uniteBy, uniteBy_self]

theorem uniteTexts_uniteTexts_self (present incoming : List String) :
    uniteTexts (uniteTexts present incoming) incoming = uniteTexts present incoming := by
  simp only [uniteTexts_eq_uniteBy, uniteBy_uniteBy_self]

/-- What was united in the other order holds all texts of the first list. -/
theorem uniteTexts_uniteTexts_left (present incoming : List String) :
    uniteTexts (uniteTexts incoming present) incoming = uniteTexts incoming present := by
  simp only [uniteTexts_eq_uniteBy]
  apply uniteBy_of_forall_mem
  intro text hm
  apply (mem_map_uniteBy id incoming present text).mpr
  exact Or.inl (List.mem_map_of_mem hm)

theorem Body.unite_self (b : Body) : b.unite b = b := by
  simp only [unite, uniteMembers_self, Bool.or_self]

theorem Body.unite_unite_self (b other : Body) : (b.unite other).unite other = b.unite other := by
  simp only [unite, uniteMembers_uniteMembers_self, Bool.or_assoc, Bool.or_self]

theorem Content.unite?_self {content : Content} (h : content.kind ≠ .unresolved) :
    content.unite? content = some content := by
  cases content with
  | classContent body => simp only [unite?, Body.unite_self]
  | enumContent body constants => simp only [unite?, Body.unite_self, uniteMembers_self]
  | interfaceContent methods => simp only [unite?, uniteMembers_self]
  | placeholder => exact absurd rfl h

theorem Content.unite?_of_unite? {content other united : Content}
    (h : content.unite? other = some united) : united.unite? other = some united := by
  cases content <;> cases other <;> simp only [unite?, Option.some.injEq, reduceCtorEq] at h
  case classContent.classContent =>
    subst h
    simp only [unite?, Body.unite_unite_self]
  case enumContent.enumContent =>
    subst h
    simp only [unite?, Body.unite_unite_self, uniteMembers_uniteMembers_self]
  case interfaceContent.interfaceContent =>
    subst h
    simp only [unite?, uniteMembers_uniteMembers_self]

/-! ## Definitions -/

namespace Entity

/-- Filling an empty field twice from the same source fills it once. -/
private theorem fallback_fallback {α : Type} (empty : α → Bool) (x y : α) :
    (if empty (if empty x then y else x) then y else if empty x then y else x) =
      if empty x then y else x := by
  cases hx : empty x <;> simp [hx]

theorem unite_unite_self (e other : Entity) (content : Content) :
    (e.unite other content).unite other content = e.unite other content := by
  simp only [unite, uniteTexts_uniteTexts_self, Bool.or_assoc, Bool.or_self, mk.injEq, true_and,
    and_true]
  exact ⟨fallback_fallback List.isEmpty _ _, fallback_fallback Comment.isEmpty _ _,
    fallback_fallback List.isEmpty _ _⟩

theorem merge_self (e : Entity) : e.merge e = .ok e := by
  cases hp : e.isPlaceholder with
  | true =>
      rw [merge_placeholder_right hp, ite_self]
  | false =>
      rw [merge_declared hp hp, Content.unite?_self ((declared_iff e).mp hp)]
      simp only [unite, uniteTexts_self, Bool.or_self, ite_self]

/-- A definition that has been merged is absorbed when it is merged again, whether the two are
placeholders or declarations. -/
theorem merge_of_merge {e other merged : Entity} (h : e.merge other = .ok merged) :
    merged.merge other = .ok merged := by
  have hm : merged.isPlaceholder = (e.isPlaceholder && other.isPlaceholder) :=
    isPlaceholder_of_merge h
  cases ho : other.isPlaceholder with
  | true =>
      rw [merge_placeholder_right ho] at h ⊢
      rw [← Except.ok.inj h]
      simp only [Except.ok.injEq, mk.injEq, true_and, and_true]
      exact fallback_fallback List.isEmpty _ _
  | false =>
      rw [ho, Bool.and_false] at hm
      cases he : e.isPlaceholder with
      | true =>
          -- the declaration took the place, so it meets itself with more stereotypes
          rw [merge_placeholder_left he ho] at h
          obtain rfl := Except.ok.inj h
          rw [merge_declared hm ho, Content.unite?_self ((declared_iff other).mp ho)]
          simp only [unite, uniteTexts_uniteTexts_left, Bool.or_self, ite_self]
      | false =>
          obtain ⟨content, hc, rfl⟩ := (merge_declared_eq_ok_iff he ho).mp h
          apply (merge_declared_eq_ok_iff hm ho).mpr
          exact ⟨content, Content.unite?_of_unite? hc, (unite_unite_self e other content).symm⟩

end Entity

/-! ## Tables -/

/-- What a key holds in a fusion absorbs what the second side holds there. -/
theorem Joined.absorbs {present joined : Option Entity} {incoming : Entity}
    (h : Joined present (some incoming) joined) :
    ∃ held, joined = some held ∧ held.merge incoming = .ok held := by
  cases h with
  | incoming => exact ⟨incoming, rfl, incoming.merge_self⟩
  | both hm => exact ⟨_, rfl, Entity.merge_of_merge hm⟩

namespace Table

theorem IsFusion.compatible {t u fused : Table Entity} (h : t.IsFusion u fused) :
    fused.Compatible u := by
  intro key held incoming hheld hincoming
  have hj := h.get? key
  rw [hincoming] at hj
  obtain ⟨held', hheld', hm⟩ := hj.absorbs
  rw [hheld] at hheld'
  obtain rfl := Option.some.inj hheld'
  exact ⟨held, hm⟩

/-- A table that has been fused with another one stays as it is when it is fused with it again. -/
theorem IsFusion.eq_of_isFusion {t u fused again : Table Entity} (h : t.IsFusion u fused)
    (h' : fused.IsFusion u again) : again = fused := by
  apply ext_get?
  · have hknown : u.keys.filter (· ∉ fused.keys) = [] := by
      apply List.filter_eq_nil_iff.mpr
      intro key hk
      simpa using (h.mem_keys_iff key).mpr (Or.inr hk)
    rw [h'.keys, hknown, List.append_nil]
  · intro key
    have hj := h.get? key
    have hj' := h'.get? key
    cases hincoming : u.get? key with
    | none =>
        rw [hincoming] at hj'
        generalize fused.get? key = held at hj'
        generalize again.get? key = held' at hj'
        cases hj' <;> rfl
    | some incoming =>
        rw [hincoming] at hj hj'
        obtain ⟨held, hheld, hm⟩ := hj.absorbs
        rw [hheld] at hj' ⊢
        generalize again.get? key = held' at hj'
        cases hj' with
        | both hm' => rw [← Except.ok.inj (hm.symm.trans hm')]

end Table

/-! ## Diagrams -/

namespace Diagram

/-- Relations that were carried over have no ends that a fusion into the same table moves. -/
theorem settle_retarget {objects stubs : Table Entity} {other : Diagram} (h : other.Closed)
    {e : Endpoint} (he : e ∈ other.endpoints) :
    settle objects stubs (retarget objects other e) = retarget objects other e := by
  cases e with
  | name _ => rfl
  | ref ref =>
      obtain ⟨key, hk⟩ := h.key? he
      rw [retarget_ref hk, settle_aim]

/-- The relations of a fusion keep their ends when the same diagram is fused again, and those of
that diagram follow as they did before. -/
theorem relations_fusedWith_fusedWith {d other : Diagram} (objects : Table Entity)
    (h : other.Closed) :
    ((d.fusedWith other objects).fusedWith other objects).relations =
      (d.fusedWith other objects).relations ++
        other.relations.map (·.mapEnds (retarget objects other)) := by
  have hown : (d.relations.map (·.mapEnds (settle objects d.stubs))).map
        (·.mapEnds (settle objects d.stubs)) =
      d.relations.map (·.mapEnds (settle objects d.stubs)) := by
    simp only [List.map_map, Function.comp_def, Relation.mapEnds_mapEnds,
      settle_settle (Table.Grows.refl objects)]
  have htaken : (other.relations.map (·.mapEnds (retarget objects other))).map
        (·.mapEnds (settle objects d.stubs)) =
      other.relations.map (·.mapEnds (retarget objects other)) := by
    simp only [List.map_map, Function.comp_def, Relation.mapEnds_mapEnds]
    exact map_mapEnds_congr fun e he => settle_retarget h he
  simp only [fusedWith, List.map_append, hown, htaken]

/-- Fusing the same diagram again succeeds and adds no data to entities: both tables and the mark
stay, and the diagnostics are appended once more. Where the references of that diagram denote
entities, all relations stay as well, and the block that the first fusion appended is appended
once more. -/
theorem fuse_fuse {d other fused : Diagram} (h : d.fuse other = .ok fused) :
    ∃ again, fused.fuse other = .ok again ∧
      again.objects = fused.objects ∧ again.stubs = fused.stubs ∧
      again.inferred = fused.inferred ∧
      fused.diagnostics = d.diagnostics ++ other.diagnostics ∧
      again.diagnostics = fused.diagnostics ++ other.diagnostics ∧
      (other.Closed → ∃ own taken, fused.relations = own ++ taken ∧
        own.length = d.relations.length ∧ taken.length = other.relations.length ∧
        again.relations = fused.relations ++ taken) := by
  obtain ⟨objects, hf, rfl⟩ := fuse_eq_ok h
  obtain ⟨again, ha⟩ := (exists_fuse_iff (d.fusedWith other objects) other).mpr hf.compatible
  obtain ⟨objects', hf', rfl⟩ := fuse_eq_ok ha
  obtain rfl : objects' = objects := hf.eq_of_isFusion hf'
  have hmark : ((d.inferred || other.inferred) || other.inferred) =
      (d.inferred || other.inferred) := by
    rw [Bool.or_assoc, Bool.or_self]
  refine ⟨_, ha, rfl, rfl, hmark, rfl, rfl, fun ho => ?_⟩
  exact ⟨_, _, rfl, List.length_map .., List.length_map ..,
    relations_fusedWith_fusedWith objects' ho⟩

/-- A basket whose owner is a placeholder and whose item is a stub. -/
def basket : Diagram where
  objects := (Table.empty.insert "Basket"
      { Entity.ofKind .classKind "Basket" [] with stereotypes := ["entity"] }).insert "Owner"
    { Entity.placeholder "Owner" with stereotypes := ["external"] }
  stubs := Table.empty.insert "Item" (.placeholder "Item")
  relations := [.associate (.registered 0) (.stub 0) (.ofRoleB "items"),
    ⟨.name "Owner", .ref (.registered 1), .inheritance⟩]
  inferred := true

/-- A basket with a method that is there twice, its owner and its item, and a shop that is only
mentioned. -/
def shelves : Diagram where
  objects := (((Table.empty.insert "Owner" (.ofKind .classKind "Owner" ["people"])).insert "Basket"
        { name := "Basket"
          content := .classContent
            { methods := [.method "clear" .publicAccess [] .void,
                .method "clear" .privateAccess [] .void] }
          stereotypes := ["entity", "stored", "stored"] }).insert "Item"
      (.ofKind .enumKind "Item" [])).insert "Shop" (.placeholder "Shop")
  stubs := Table.empty.insert "Depot" (.placeholder "Depot")
  relations := [⟨.ref (.registered 2), .ref (.registered 3), .implements⟩,
    .associate (.registered 1) (.stub 0) (.ofRoleB "depot")]
  diagnostics := [unresolvedWarning "Depot"]

/-- Fused once, the basket has its owner and its item, and the shelves' relations are about bare
names; fused again, it has these two relations and their warning once more. -/
theorem fuse_fuse_basket_shelves :
    shelves.Closed ∧ ∃ fused, basket.fuse shelves = .ok fused ∧
      fused.relations = [.associate (.registered 0) (.registered 2) (.ofRoleB "items"),
        ⟨.name "Owner", .ref (.registered 1), .inheritance⟩,
        ⟨.ref (.registered 2), .name "Shop", .implements⟩,
        ⟨.ref (.registered 0), .name "Depot", .association (.ofRoleB "depot")⟩] ∧
      ∃ again, fused.fuse shelves = .ok again ∧ again.objects = fused.objects ∧
        again.diagnostics = [unresolvedWarning "Depot", unresolvedWarning "Depot"] ∧
        again.relations = fused.relations ++ fused.relations.drop 2 := by
  have hc : shelves.Closed := by decide
  refine ⟨hc, _, rfl, by decide, ?_⟩
  obtain ⟨again, ha, hobjects, _, _, _, hdiagnostics, hrelations⟩ :=
    fuse_fuse (show basket.fuse shelves = .ok _ from rfl)
  obtain ⟨own, taken, heq, hown, _, hagain⟩ := hrelations hc
  refine ⟨again, ha, hobjects, hdiagnostics, ?_⟩
  have htaken : (own ++ taken).drop 2 = taken := List.drop_left' hown
  rw [hagain, heq, htaken]

end Diagram

end ClassDiagram
