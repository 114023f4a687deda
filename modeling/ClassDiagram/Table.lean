/-!
# Tables

A table keeps its entries in the order in which their keys first arrived, so an entry is known
by its key and by its position alike. Keys never repeat (`Table.nodup`), and no operation moves
an entry: a new key goes to the end, an old one keeps its place.
-/

namespace ClassDiagram

/-- Values under distinct names, in the order of arrival. -/
@[ext] structure Table (α : Type) where
  entries : List (String × α)
  nodup : (entries.map Prod.fst).Nodup

namespace Table

variable {α β ε : Type}

def empty : Table α := ⟨[], List.nodup_nil⟩

instance : EmptyCollection (Table α) := ⟨empty⟩
instance : Inhabited (Table α) := ⟨empty⟩

instance [DecidableEq α] : DecidableEq (Table α) := fun t u =>
  decidable_of_iff (t.entries = u.entries) Table.ext_iff.symm

def keys (t : Table α) : List String := t.entries.map Prod.fst

def values (t : Table α) : List α := t.entries.map Prod.snd

def size (t : Table α) : Nat := t.entries.length

/-- The position of a key; for an unknown key the position that it would get. -/
def position (t : Table α) (key : String) : Nat :=
  t.keys.idxOf key

/-- The value under a key. -/
def get? (t : Table α) (key : String) : Option α :=
  t.entries.lookup key

/-- The value at a position. -/
def at? (t : Table α) (index : Nat) : Option α :=
  t.values[index]?

/-- The key at a position. -/
def key? (t : Table α) (index : Nat) : Option String :=
  t.keys[index]?

/-- Overwrite in place where the key is known, append otherwise. -/
def insertEntry (key : String) (value : α) : List (String × α) → List (String × α)
  | [] => [(key, value)]
  | entry :: rest =>
    if entry.1 = key then (key, value) :: rest else entry :: insertEntry key value rest

theorem keys_insertEntry (key : String) (value : α) (entries : List (String × α)) :
    (insertEntry key value entries).map Prod.fst =
      if key ∈ entries.map Prod.fst then entries.map Prod.fst
      else entries.map Prod.fst ++ [key] := by
  induction entries with
  | nil => rfl
  | cons entry rest ih =>
    by_cases h : entry.1 = key
    · simp [insertEntry, h]
    · have h' : ¬ key = entry.1 := fun e => h e.symm
      by_cases hr : key ∈ rest.map Prod.fst
      · rw [if_pos hr] at ih
        rw [if_pos (by simpa using Or.inr (by simpa using hr))]
        simp [insertEntry, h, ih]
      · rw [if_neg hr] at ih
        rw [if_neg (by simpa [h'] using hr)]
        simp [insertEntry, h, ih]

theorem nodup_insertEntry {key : String} {value : α} {entries : List (String × α)}
    (h : (entries.map Prod.fst).Nodup) :
    ((insertEntry key value entries).map Prod.fst).Nodup := by
  rw [keys_insertEntry]
  split
  · exact h
  · next hk =>
    exact List.nodup_append.2 ⟨h, by simp, by
      intro a ha b hb
      rw [List.mem_singleton.1 hb]
      rintro rfl
      exact hk ha⟩

/-- Put a value under a key: in place of the old one, or at the end. -/
def insert (t : Table α) (key : String) (value : α) : Table α :=
  ⟨insertEntry key value t.entries, nodup_insertEntry t.nodup⟩

theorem keys_insert (t : Table α) (key : String) (value : α) :
    (t.insert key value).keys = if key ∈ t.keys then t.keys else t.keys ++ [key] :=
  keys_insertEntry key value t.entries

theorem lookup_cons_ite (key : String) (entry : String × α) (rest : List (String × α)) :
    (entry :: rest).lookup key = if key = entry.1 then some entry.2 else rest.lookup key := by
  obtain ⟨k, v⟩ := entry
  by_cases h : key = k
  · simp [h]
  · have hb : (key == k) = false := by simpa using h
    simp [List.lookup_cons, h, hb]

theorem lookup_insertEntry (key other : String) (value : α) (entries : List (String × α)) :
    (insertEntry key value entries).lookup other =
      if other = key then some value else entries.lookup other := by
  induction entries with
  | nil => simp [insertEntry, lookup_cons_ite]
  | cons entry rest ih =>
    by_cases hk : entry.1 = key
    · by_cases h : other = key <;> simp [insertEntry, lookup_cons_ite, hk, h]
    · by_cases h : other = key
      · subst h
        have hne : ¬ other = entry.1 := fun e => hk e.symm
        simpa [insertEntry, lookup_cons_ite, hk, hne] using ih
      · simp [insertEntry, lookup_cons_ite, ih, hk, h]

/-- An insertion changes what is found under its own key and nothing else. -/
theorem get?_insert (t : Table α) (key other : String) (value : α) :
    (t.insert key value).get? other = if other = key then some value else t.get? other :=
  lookup_insertEntry key other value t.entries

theorem isSome_lookup_iff (key : String) (entries : List (String × α)) :
    (entries.lookup key).isSome = true ↔ key ∈ entries.map Prod.fst := by
  induction entries with
  | nil => simp
  | cons entry rest ih =>
    rw [lookup_cons_ite, List.map_cons, List.mem_cons, ← ih]
    split <;> simp [*]

/-- A key is there exactly if something is found under it. -/
theorem isSome_get?_iff (t : Table α) (key : String) :
    (t.get? key).isSome = true ↔ key ∈ t.keys :=
  isSome_lookup_iff key t.entries

theorem getElem?_idxOf_of_lookup {key : String} {value : α} {entries : List (String × α)}
    (h : entries.lookup key = some value) :
    entries[(entries.map Prod.fst).idxOf key]? = some (key, value) := by
  induction entries with
  | nil => cases h
  | cons entry rest ih =>
    rw [lookup_cons_ite] at h
    by_cases hk : key = entry.1
    · rw [if_pos hk] at h
      cases h
      simp [hk]
    · rw [if_neg hk] at h
      have hne : ¬ entry.1 = key := fun e => hk e.symm
      have hb : (entry.1 == key) = false := by simpa using hne
      simpa [List.idxOf_cons, hb] using ih h

/-- The value of a key stands at the key's position. -/
theorem at?_position {t : Table α} {key : String} {value : α} (h : t.get? key = some value) :
    t.at? (t.position key) = some value := by
  simp [at?, values, position, keys, getElem?_idxOf_of_lookup h]

/-- A key stands at its position. -/
theorem key?_position {t : Table α} {key : String} {value : α} (h : t.get? key = some value) :
    t.key? (t.position key) = some key := by
  simp [key?, position, keys, getElem?_idxOf_of_lookup h]

/-- Put a value under a key unless there is one already. -/
def ensure (t : Table α) (key : String) (value : α) : Table α :=
  if (t.get? key).isSome then t else t.insert key value

/-- Apply a function to every value. -/
def map (f : α → β) (t : Table α) : Table β :=
  ⟨t.entries.map fun e => (e.1, f e.2), by
    have h : (t.entries.map fun e => (e.1, f e.2)).map Prod.fst = t.entries.map Prod.fst := by
      simp [Function.comp_def]
    exact h ▸ t.nodup⟩

@[simp] theorem keys_map (f : α → β) (t : Table α) : (t.map f).keys = t.keys := by
  simp [map, keys, Function.comp_def]

/-- Apply a function to the value at one position. -/
def modify (t : Table α) (index : Nat) (f : α → α) : Table α :=
  ⟨t.entries.modify index fun e => (e.1, f e.2), by
    have h : (t.entries.modify index fun e => (e.1, f e.2)).map Prod.fst =
        t.entries.map Prod.fst := by
      apply List.ext_getElem
      · simp
      · intro i h₁ h₂
        simp only [List.getElem_map, List.getElem_modify]
        split <;> rfl
    exact h ▸ t.nodup⟩

@[simp] theorem keys_modify (t : Table α) (index : Nat) (f : α → α) :
    (t.modify index f).keys = t.keys := by
  apply List.ext_getElem
  · simp [keys, modify]
  · intro i h₁ h₂
    simp only [keys, modify, List.getElem_map, List.getElem_modify]
    split <;> rfl

/-- Apply a function that can fail to every value, from the first to the last. -/
def traverseEntries (f : α → Except ε β) : List (String × α) → Except ε (List (String × β))
  | [] => .ok []
  | entry :: rest => do
    let value ← f entry.2
    let values ← traverseEntries f rest
    return (entry.1, value) :: values

theorem keys_of_traverseEntries {f : α → Except ε β} {entries : List (String × α)}
    {result : List (String × β)} (h : traverseEntries f entries = .ok result) :
    result.map Prod.fst = entries.map Prod.fst := by
  induction entries generalizing result with
  | nil => cases h; rfl
  | cons entry rest ih =>
    simp only [traverseEntries, bind, Except.bind, pure, Except.pure] at h
    split at h
    · cases h
    · split at h
      · cases h
      · next hrest => cases h; simp [ih hrest]

/-- Apply a function that can fail to every value; keys and places stay. -/
def traverse (f : α → Except ε β) (t : Table α) : Except ε (Table β) :=
  match h : traverseEntries f t.entries with
  | .error e => .error e
  | .ok entries => .ok ⟨entries, keys_of_traverseEntries h ▸ t.nodup⟩

end Table

end ClassDiagram
