import ClassDiagram.Table

/-!
# Tables by key and by position

A table is determined by its keys in order and by what is found under each of
them. Positions are only read off the keys, so a table whose keys begin with
those of another one keeps all positions of the other.
-/

namespace ClassDiagram

namespace Table

variable {α β ε : Type}

/-! ## Keys, positions and values -/

theorem mem_keys_iff (t : Table α) (key : String) :
    key ∈ t.keys ↔ ∃ value, t.get? key = some value := by
  rw [← isSome_get?_iff, Option.isSome_iff_exists]

theorem mem_keys_of_get? {t : Table α} {key : String} {value : α}
    (h : t.get? key = some value) : key ∈ t.keys :=
  (mem_keys_iff t key).mpr ⟨value, h⟩

theorem lookup_eq_some_iff_mem {key : String} {value : α} {entries : List (String × α)}
    (hn : (entries.map Prod.fst).Nodup) :
    entries.lookup key = some value ↔ (key, value) ∈ entries := by
  induction entries with
  | nil => simp
  | cons entry rest ih =>
      rw [List.map_cons, List.nodup_cons] at hn
      rw [lookup_cons_ite, List.mem_cons, ← ih hn.2]
      by_cases hk : key = entry.1
      · have hr : rest.lookup key ≠ some value := by
          intro hl
          exact hn.1 (hk ▸ (isSome_lookup_iff key rest).mp (by simp [hl]))
        simp [hk, hk ▸ hr, Prod.ext_iff, eq_comm]
      · simp [hk, Prod.ext_iff]

theorem mem_entries_iff (t : Table α) (key : String) (value : α) :
    (key, value) ∈ t.entries ↔ t.get? key = some value :=
  (lookup_eq_some_iff_mem t.nodup).symm

/-- Tables with the same keys in the same order and the same values are equal. -/
theorem ext_get? {t u : Table α} (hk : t.keys = u.keys)
    (hg : ∀ key, t.get? key = u.get? key) : t = u := by
  apply Table.ext
  apply List.ext_getElem
  · simpa [keys] using congrArg List.length hk
  · intro i h₁ h₂
    have hfst : t.entries[i].1 = u.entries[i].1 := by
      have h := congrArg (fun ks : List String => ks[i]?) hk
      simpa [keys, h₁, h₂] using h
    have hsnd : some t.entries[i].2 = some u.entries[i].2 := by
      calc
        some t.entries[i].2 = t.get? t.entries[i].1 :=
          ((mem_entries_iff t _ _).mp (List.getElem_mem h₁)).symm
        _ = u.get? u.entries[i].1 := by rw [hg, hfst]
        _ = some u.entries[i].2 := (mem_entries_iff u _ _).mp (List.getElem_mem h₂)
    exact Prod.ext hfst (Option.some.inj hsnd)

theorem position_of_key? {t : Table α} {index : Nat} {key : String}
    (h : t.key? index = some key) : t.position key = index := by
  obtain ⟨hi, rfl⟩ := List.getElem?_eq_some_iff.mp h
  exact t.nodup.idxOf_getElem index hi

theorem key?_position_of_mem {t : Table α} {key : String} (h : key ∈ t.keys) :
    t.key? (t.position key) = some key := by
  obtain ⟨value, hv⟩ := (mem_keys_iff t key).mp h
  exact key?_position hv

theorem key?_mem {t : Table α} {index : Nat} {key : String}
    (h : t.key? index = some key) : key ∈ t.keys :=
  List.mem_of_getElem? h

/-- The value at a position is the one under the key at that position. -/
theorem at?_eq_bind (t : Table α) (index : Nat) :
    t.at? index = (t.key? index).bind t.get? := by
  by_cases hi : index < t.entries.length
  · have hm : t.get? t.entries[index].1 = some t.entries[index].2 :=
      (mem_entries_iff t _ _).mp (List.getElem_mem hi)
    simp [at?, key?, values, keys, hi, hm]
  · simp [at?, key?, values, keys, hi]

theorem at?_of_key? {t : Table α} {index : Nat} {key : String}
    (h : t.key? index = some key) : t.at? index = t.get? key := by
  rw [at?_eq_bind, h, Option.bind_some]

theorem at?_eq_some_iff (t : Table α) (index : Nat) (value : α) :
    t.at? index = some value ↔
      ∃ key, t.key? index = some key ∧ t.get? key = some value := by
  rw [at?_eq_bind, Option.bind_eq_some_iff]

theorem key?_of_at? {t : Table α} {index : Nat} (h : (t.at? index).isSome = true) :
    ∃ key, t.key? index = some key := by
  obtain ⟨value, hv⟩ := Option.isSome_iff_exists.mp h
  obtain ⟨key, hk, _⟩ := (at?_eq_some_iff t index value).mp hv
  exact ⟨key, hk⟩

theorem isSome_at?_of_key? {t : Table α} {index : Nat} {key : String}
    (h : t.key? index = some key) : (t.at? index).isSome = true := by
  rw [at?_of_key? h, isSome_get?_iff]
  exact key?_mem h

/-! ## Tables that begin with another table's keys -/

theorem key?_of_isPrefix {t : Table α} {u : Table β} (h : t.keys <+: u.keys) {index : Nat}
    {key : String} (hk : t.key? index = some key) : u.key? index = some key := by
  obtain ⟨more, hm⟩ := h
  rw [key?, ← hm, List.getElem?_append_left (List.getElem?_eq_some_iff.mp hk).1]
  exact hk

theorem position_of_isPrefix {t : Table α} {u : Table β} (h : t.keys <+: u.keys) {key : String}
    (hk : key ∈ t.keys) : u.position key = t.position key :=
  position_of_key? (key?_of_isPrefix h (key?_position_of_mem hk))

/-! ## What the operations do to keys and values -/

theorem keys_prefix_insert (t : Table α) (key : String) (value : α) :
    t.keys <+: (t.insert key value).keys := by
  rw [keys_insert]
  split
  · exact List.prefix_refl _
  · exact List.prefix_append _ _

theorem get?_ensure (t : Table α) (key other : String) (value : α) :
    (t.ensure key value).get? other =
      if other = key then some ((t.get? key).getD value) else t.get? other := by
  by_cases hs : (t.get? key).isSome = true
  · obtain ⟨present, hp⟩ := Option.isSome_iff_exists.mp hs
    rw [ensure, if_pos hs]
    split
    · next he => rw [he, hp, Option.getD_some]
    · rfl
  · have hn : t.get? key = none := Option.not_isSome_iff_eq_none.mp hs
    rw [ensure, if_neg hs, get?_insert, hn, Option.getD_none]

theorem keys_ensure (t : Table α) (key : String) (value : α) :
    (t.ensure key value).keys = if key ∈ t.keys then t.keys else t.keys ++ [key] := by
  simp only [ensure, isSome_get?_iff, apply_ite keys, keys_insert]
  split <;> rfl

theorem keys_prefix_ensure (t : Table α) (key : String) (value : α) :
    t.keys <+: (t.ensure key value).keys := by
  rw [keys_ensure]
  split
  · exact List.prefix_refl _
  · exact List.prefix_append _ _

@[simp] theorem get?_map (f : α → β) (t : Table α) (key : String) :
    (t.map f).get? key = (t.get? key).map f := by
  simp only [get?, map]
  induction t.entries with
  | nil => rfl
  | cons entry rest ih =>
      rw [List.map_cons, lookup_cons_ite, lookup_cons_ite, ih]
      split <;> rfl

theorem values_map (f : α → β) (t : Table α) : (t.map f).values = t.values.map f := by
  simp [values, map]

theorem map_map (f : α → β) {γ : Type} (g : β → γ) (t : Table α) :
    (t.map f).map g = t.map fun value => g (f value) := by
  apply ext_get? (by simp)
  intro key
  cases h : t.get? key <;> simp [h]

theorem map_id (t : Table α) : t.map (fun value => value) = t := by
  apply ext_get? (by simp)
  intro key
  rw [get?_map, Option.map_id']

/-- A change that depends on a condition alone is made to the whole table or not at all. -/
theorem map_ite (c : Prop) [Decidable c] (f : α → α) (t : Table α) :
    t.map (fun value => if c then f value else value) = if c then t.map f else t := by
  split
  · rfl
  · exact map_id t

/-- A traversal with a function that never fails is the map with its results. -/
theorem traverse_eq_map {f : α → Except ε β} {g : α → β} (h : ∀ value, f value = .ok (g value))
    (t : Table α) : t.traverse f = .ok (t.map g) := by
  have hentries (entries : List (String × α)) :
      traverseEntries f entries = .ok (entries.map fun e => (e.1, g e.2)) := by
    induction entries with
    | nil => rfl
    | cons entry rest ih => rw [traverseEntries, h, ih]; rfl
  unfold traverse
  split
  · next e he => rw [hentries] at he; cases he
  · next entries he =>
      rw [hentries] at he
      exact congrArg Except.ok (Table.ext (Except.ok.inj he).symm)

end Table

end ClassDiagram
