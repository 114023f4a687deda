import ClassDiagram.Diagram.Fuse
import ClassDiagram.Proofs.Growth

/-!
# What a fusion holds

A fusion succeeds exactly if every two definitions under one key can be
merged. Its table of entities then begins with the keys of the first diagram,
goes on with the new keys of the second one, and holds under each key what the
two diagrams hold there, merged.
-/

namespace ClassDiagram

theorem Except.bind_eq_ok_iff {ε α β : Type} {x : Except ε α} {f : α → Except ε β} {b : β} :
    (x >>= f) = .ok b ↔ ∃ a, x = .ok a ∧ f a = .ok b := by
  cases x with
  | error _ =>
      constructor
      · intro h
        cases h
      · rintro ⟨_, h, _⟩
        cases h
  | ok a =>
      constructor
      · intro h
        exact ⟨a, rfl, h⟩
      · rintro ⟨_, h, hf⟩
        cases h
        exact hf

/-- A second step that succeeds under one condition, whatever the first one gives. -/
theorem Except.exists_bind_eq_ok_iff {ε α β : Type} {x : Except ε α} {f : α → Except ε β} {p : Prop}
    (h : ∀ a, x = .ok a → ((∃ b, f a = .ok b) ↔ p)) :
    (∃ b, (x >>= f) = .ok b) ↔ (∃ a, x = .ok a) ∧ p := by
  simp only [Except.bind_eq_ok_iff]
  constructor
  · rintro ⟨b, a, ha, hb⟩
    exact ⟨⟨a, ha⟩, (h a ha).mp ⟨b, hb⟩⟩
  · rintro ⟨⟨a, ha⟩, hp⟩
    obtain ⟨b, hb⟩ := (h a ha).mpr hp
    exact ⟨b, a, ha, hb⟩

theorem Except.exists_error_iff {ε α : Type} (x : Except ε α) :
    (∃ e, x = .error e) ↔ ¬ ∃ a, x = .ok a := by
  cases x <;> simp

/-- What a key holds in a fusion, from what it holds on either side. -/
inductive Joined : Option Entity → Option Entity → Option Entity → Prop
  | incoming (held : Option Entity) : Joined none held held
  | present (e : Entity) : Joined (some e) none (some e)
  | both {e other merged : Entity} (h : e.merge other = .ok merged) :
      Joined (some e) (some other) (some merged)

theorem Joined.kind {e : Entity} {incoming joined : Option Entity}
    (h : Joined (some e) incoming joined) (hd : e.isPlaceholder = false) :
    ∃ merged, joined = some merged ∧ merged.kind = e.kind := by
  cases h with
  | present => exact ⟨e, rfl, rfl⟩
  | both hm =>
      have hk := Entity.kind_of_merge hm
      rw [hd, if_neg Bool.false_ne_true] at hk
      exact ⟨_, rfl, hk⟩

theorem Joined.name {key : String} {present incoming : Option Entity} {merged : Entity}
    (h : Joined present incoming (some merged)) (hp : ∀ e ∈ present, e.name = key)
    (hi : ∀ e ∈ incoming, e.name = key) : merged.name = key := by
  cases h with
  | incoming => exact hi merged rfl
  | present => exact hp merged rfl
  | @both e other _ hm =>
      rw [Entity.name_of_merge hm ((hp e rfl).trans (hi other rfl).symm)]
      exact hp e rfl

namespace Table

/-- Any two entities under one key can be merged. -/
def Compatible (t u : Table Entity) : Prop :=
  ∀ key e other, t.get? key = some e → u.get? key = some other →
    ∃ merged, e.merge other = .ok merged

/-- The keys of `t`, then the new keys of `u`, each with what the two hold. -/
structure IsFusion (t u fused : Table Entity) : Prop where
  keys : fused.keys = t.keys ++ u.keys.filter (· ∉ t.keys)
  get? : ∀ key, Joined (t.get? key) (u.get? key) (fused.get? key)

/-- A declaration of the first table keeps its kind. -/
theorem IsFusion.kind {t u fused : Table Entity} (h : t.IsFusion u fused) {key : String}
    {e : Entity} (he : t.get? key = some e) (hd : e.isPlaceholder = false) :
    ∃ e', fused.get? key = some e' ∧ e'.kind = e.kind := by
  have hj := h.get? key
  rw [he] at hj
  exact hj.kind hd

theorem IsFusion.grows {t u fused : Table Entity} (h : t.IsFusion u fused) : t.Grows fused :=
  ⟨h.keys ▸ List.prefix_append _ _, fun _ _ he hd => h.kind he hd⟩

theorem IsFusion.mem_keys_iff {t u fused : Table Entity} (h : t.IsFusion u fused) (key : String) :
    key ∈ fused.keys ↔ key ∈ t.keys ∨ key ∈ u.keys := by
  rw [h.keys, List.mem_append, List.mem_filter, decide_eq_true_eq]
  by_cases hk : key ∈ t.keys <;> simp [hk]

/-- What the second table does not hold stays as it is in the first. -/
theorem IsFusion.get?_of_left {t u fused : Table Entity} (h : t.IsFusion u fused) {key : String}
    (hu : u.get? key = none) : fused.get? key = t.get? key := by
  have hj := h.get? key
  rw [hu] at hj
  generalize fused.get? key = held at hj
  generalize t.get? key = present at hj
  cases hj <;> rfl

theorem IsFusion.get?_of_right {t u fused : Table Entity} (h : t.IsFusion u fused) {key : String}
    (ht : t.get? key = none) : fused.get? key = u.get? key := by
  have hj := h.get? key
  rw [ht] at hj
  generalize fused.get? key = held at hj
  cases hj
  rfl

end Table

namespace Diagram

/-! ## Conflicts -/

theorem conflict?_eq_none_iff (objects : Table Entity) (incoming : String × Entity) :
    conflict? objects incoming = none ↔
      ∀ present, objects.get? incoming.1 = some present →
        ∃ merged, present.merge incoming.2 = .ok merged := by
  cases h : objects.get? incoming.1 with
  | none => simp [conflict?, h]
  | some present =>
      simp only [Option.some.injEq, forall_eq', Entity.exists_merge_iff]
      cases hp : present.isPlaceholder <;> cases hi : incoming.2.isPlaceholder <;>
        simp [conflict?, h, hp, hi]

theorem findSome?_conflict?_eq_none_iff (t u : Table Entity) :
    u.entries.findSome? (conflict? t) = none ↔ t.Compatible u := by
  simp only [List.findSome?_eq_none_iff, conflict?_eq_none_iff]
  constructor
  · intro h key e other he ho
    exact h (key, other) ((Table.mem_entries_iff u key other).mpr ho) e he
  · intro h entry hm present hp
    exact h entry.1 present entry.2 hp ((Table.mem_entries_iff u entry.1 entry.2).mp hm)

/-! ## Merging entries into a table -/

theorem mergeEntry_eq_ok {objects merged : Table Entity} {entry : String × Entity}
    (h : mergeEntry objects entry = .ok merged) :
    ∃ value, Joined (objects.get? entry.1) (some entry.2) (some value) ∧
      merged = objects.insert entry.1 value := by
  cases hp : objects.get? entry.1 with
  | none =>
      simp only [mergeEntry, hp, Except.ok.injEq] at h
      exact ⟨entry.2, .incoming _, h.symm⟩
  | some present =>
      simp only [mergeEntry, hp] at h
      cases hm : present.merge entry.2 with
      | error _ => rw [hm] at h; cases h
      | ok value =>
          rw [hm] at h
          exact ⟨value, .both hm, (Except.ok.inj h).symm⟩

theorem exists_mergeEntry {objects : Table Entity} {key : String} {e : Entity}
    (h : ∀ present, objects.get? key = some present → ∃ value, present.merge e = .ok value) :
    ∃ value, mergeEntry objects (key, e) = .ok (objects.insert key value) := by
  cases hp : objects.get? key with
  | none => exact ⟨e, by simp only [mergeEntry, hp]⟩
  | some present =>
      obtain ⟨value, hv⟩ := h present hp
      exact ⟨value, by simp only [mergeEntry, hp, hv]; rfl⟩

theorem mergeEntries_cons {objects merged : Table Entity} {entry : String × Entity}
    {rest : List (String × Entity)} :
    mergeEntries objects (entry :: rest) = .ok merged ↔
      ∃ next, mergeEntry objects entry = .ok next ∧ mergeEntries next rest = .ok merged :=
  Except.bind_eq_ok_iff

/-- Inserting the first of several distinct keys takes it out of those that are still new. -/
theorem keys_insert_append {objects : Table Entity} {key : String} (value : Entity)
    {rest : List String} (hn : key ∉ rest) :
    (objects.insert key value).keys ++ rest.filter (· ∉ (objects.insert key value).keys) =
      objects.keys ++ (key :: rest).filter (· ∉ objects.keys) := by
  rw [Table.keys_insert]
  by_cases hk : key ∈ objects.keys
  · simp [hk]
  · have hrest : rest.filter (· ∉ objects.keys ++ [key]) = rest.filter (· ∉ objects.keys) := by
      apply List.filter_congr
      intro other ho
      have hne : other ≠ key := fun he => hn (he ▸ ho)
      simp [hne]
    rw [if_neg hk, hrest, List.filter_cons_of_pos (by simpa using hk), List.append_assoc,
      List.singleton_append]

/-- Merging entries with distinct keys one after the other appends the new keys. -/
theorem keys_of_mergeEntries {entries : List (String × Entity)} {objects merged : Table Entity}
    (hn : (entries.map Prod.fst).Nodup) (h : mergeEntries objects entries = .ok merged) :
    merged.keys = objects.keys ++ (entries.map Prod.fst).filter (· ∉ objects.keys) := by
  induction entries generalizing objects with
  | nil =>
      cases h
      simp
  | cons entry rest ih =>
      rw [List.map_cons, List.nodup_cons] at hn
      obtain ⟨next, hnext, hrest⟩ := mergeEntries_cons.mp h
      obtain ⟨value, _, rfl⟩ := mergeEntry_eq_ok hnext
      rw [ih hn.2 hrest, List.map_cons, keys_insert_append value hn.1]

/-- Merging entries with distinct keys one after the other merges each key once. -/
theorem joined_of_mergeEntries {entries : List (String × Entity)} {objects merged : Table Entity}
    (hn : (entries.map Prod.fst).Nodup) (h : mergeEntries objects entries = .ok merged)
    (key : String) : Joined (objects.get? key) (entries.lookup key) (merged.get? key) := by
  induction entries generalizing objects with
  | nil =>
      cases h
      cases merged.get? key with
      | none => exact .incoming _
      | some e => exact .present e
  | cons entry rest ih =>
      rw [List.map_cons, List.nodup_cons] at hn
      obtain ⟨next, hnext, hrest⟩ := mergeEntries_cons.mp h
      obtain ⟨value, hvalue, rfl⟩ := mergeEntry_eq_ok hnext
      have hlater := ih hn.2 hrest
      rw [Table.get?_insert] at hlater
      rw [Table.lookup_cons_ite]
      by_cases hk : key = entry.1
      · -- the rest does not hold the key again, so what was joined here is what remains
        subst hk
        have hnone : rest.lookup entry.1 = none := by
          rw [← Option.not_isSome_iff_eq_none, Table.isSome_lookup_iff]
          exact hn.1
        rw [if_pos rfl, hnone] at hlater
        rw [if_pos rfl]
        generalize merged.get? entry.1 = held at hlater
        cases hlater with
        | present => exact hvalue
      · rw [if_neg hk] at hlater ⊢
        exact hlater

/-- No merge fails once the conflicts have been checked against the table as it was. -/
theorem exists_mergeEntries {entries : List (String × Entity)} {objects : Table Entity}
    (hn : (entries.map Prod.fst).Nodup)
    (h : ∀ entry ∈ entries, ∀ present, objects.get? entry.1 = some present →
      ∃ value, present.merge entry.2 = .ok value) :
    ∃ merged, mergeEntries objects entries = .ok merged := by
  induction entries generalizing objects with
  | nil => exact ⟨objects, rfl⟩
  | cons entry rest ih =>
      rw [List.map_cons, List.nodup_cons] at hn
      obtain ⟨value, hvalue⟩ := exists_mergeEntry (h entry List.mem_cons_self)
      have hlater : ∀ later ∈ rest, ∀ present,
          (objects.insert entry.1 value).get? later.1 = some present →
          ∃ merged, present.merge later.2 = .ok merged := by
        intro later hl present hp
        have hne : later.1 ≠ entry.1 := fun he => hn.1 (he ▸ List.mem_map_of_mem hl)
        rw [Table.get?_insert, if_neg hne] at hp
        exact h later (List.mem_cons_of_mem _ hl) present hp
      obtain ⟨merged, hmerged⟩ := ih hn.2 hlater
      exact ⟨merged, mergeEntries_cons.mpr ⟨_, hvalue, hmerged⟩⟩

/-! ## The fusion of two diagrams -/

/-- The fusion of two diagrams around the merged table of their entities. -/
def fusedWith (d other : Diagram) (objects : Table Entity) : Diagram where
  objects := objects
  stubs := d.stubs
  relations := d.relations.map (·.mapEnds (settle objects d.stubs)) ++
    other.relations.map (·.mapEnds (retarget objects other))
  diagnostics := d.diagnostics ++ other.diagnostics
  inferred := d.inferred || other.inferred

theorem fuse_eq_ok {d other fused : Diagram} (h : d.fuse other = .ok fused) :
    ∃ objects, d.objects.IsFusion other.objects objects ∧ fused = d.fusedWith other objects := by
  unfold fuse at h
  split at h
  · cases h
  · cases hm : mergeEntries d.objects other.objects.entries with
    | error _ => rw [hm] at h; cases h
    | ok objects =>
        rw [hm] at h
        have hkeys := keys_of_mergeEntries other.objects.nodup hm
        have hjoined := joined_of_mergeEntries other.objects.nodup hm
        exact ⟨objects, ⟨hkeys, hjoined⟩, (Except.ok.inj h).symm⟩

/-- A fusion succeeds exactly if all definitions under common keys can be merged. -/
theorem exists_fuse_iff (d other : Diagram) :
    (∃ fused, d.fuse other = .ok fused) ↔ d.objects.Compatible other.objects := by
  rw [← findSome?_conflict?_eq_none_iff]
  constructor
  · rintro ⟨fused, h⟩
    unfold fuse at h
    split at h
    · cases h
    · next hc => exact hc
  · intro hc
    have hmergeable : ∀ entry ∈ other.objects.entries, ∀ present,
        d.objects.get? entry.1 = some present → ∃ merged, present.merge entry.2 = .ok merged := by
      intro entry he
      exact (conflict?_eq_none_iff d.objects entry).mp (List.findSome?_eq_none_iff.mp hc entry he)
    obtain ⟨objects, hm⟩ := exists_mergeEntries other.objects.nodup hmergeable
    exact ⟨d.fusedWith other objects, by simp only [fuse, hc, hm]; rfl⟩

theorem grows_of_fuse {d other fused : Diagram} (h : d.fuse other = .ok fused) :
    d.Grows fused := by
  obtain ⟨objects, hf, rfl⟩ := fuse_eq_ok h
  exact ⟨hf.grows, Table.Grows.refl _⟩

end Diagram

end ClassDiagram
