import ClassDiagram.Proofs.Fusion

/-!
# Fusing is all or nothing

The entities of the second diagram are merged into the first one by one, so a
merge that failed midway would leave the first diagram half fused. The check
that comes before rules this out: it looks only at the table as it was, but
distinct keys do not get into each other's way, so no merge finds anything
else under its key than the check did.

## Implementation notes

`fuse` returns no diagram when it fails. To say what becomes of the first
diagram then, `fuseInPlace` changes it step by step and keeps what has been
changed when a step fails.
-/

namespace ClassDiagram

/-- Two declarations of different kinds. -/
def Entity.Clashes (e other : Entity) : Prop :=
  e.isPlaceholder = false ∧ other.isPlaceholder = false ∧ e.kind ≠ other.kind

theorem Entity.not_clashes_iff (e other : Entity) :
    ¬ e.Clashes other ↔ ∃ merged, e.merge other = .ok merged := by
  rw [exists_merge_iff, Clashes]
  cases e.isPlaceholder <;> cases other.isPlaceholder <;> simp

namespace Diagram

/-! ## The check -/

/-- The incoming entity clashes with what the table holds under its key. -/
def ClashesAt (objects : Table Entity) (incoming : String × Entity) : Prop :=
  ∃ present, objects.get? incoming.1 = some present ∧ present.Clashes incoming.2

theorem conflict?_eq_some_iff (objects : Table Entity) (incoming : String × Entity)
    (error : ModelError) :
    conflict? objects incoming = some error ↔
      ∃ present, objects.get? incoming.1 = some present ∧ present.Clashes incoming.2 ∧
        error = .kindConflict incoming.1 present.kind incoming.2.kind := by
  cases h : objects.get? incoming.1 with
  | none => simp [conflict?, h]
  | some present =>
      have hclash : (!present.isPlaceholder && !incoming.2.isPlaceholder &&
          present.kind != incoming.2.kind) = true ↔ present.Clashes incoming.2 := by
        simp [Entity.Clashes, and_assoc]
      simp only [conflict?, h, Option.some.injEq, exists_eq_left', ← hclash]
      split
      · next hc => simp [hc, eq_comm]
      · next hc => simp [hc]

theorem conflict?_eq_none_iff_not_clashesAt (objects : Table Entity) (incoming : String × Entity) :
    conflict? objects incoming = none ↔ ¬ ClashesAt objects incoming := by
  simp only [conflict?_eq_none_iff, ClashesAt, not_exists, not_and, Entity.not_clashes_iff]

/-- A fusion fails with what the check finds first, and for no other reason. -/
theorem fuse_eq_error_iff (d other : Diagram) (error : ModelError) :
    d.fuse other = .error error ↔
      other.objects.entries.findSome? (conflict? d.objects) = some error := by
  cases h : other.objects.entries.findSome? (conflict? d.objects) with
  | some conflict => simp only [fuse, h, Except.error.injEq, Option.some.injEq]
  | none =>
      obtain ⟨fused, hf⟩ := (exists_fuse_iff d other).mpr
        ((findSome?_conflict?_eq_none_iff d.objects other.objects).mp h)
      simp [hf]

/-! ## The merges -/

theorem mergeEntries_append {objects merged : Table Entity}
    (before after : List (String × Entity)) :
    mergeEntries objects (before ++ after) = .ok merged ↔
      ∃ between, mergeEntries objects before = .ok between ∧
        mergeEntries between after = .ok merged := by
  induction before generalizing objects with
  | nil => simp [mergeEntries]
  | cons entry rest ih =>
      rw [List.cons_append, mergeEntries_cons]
      simp only [ih, mergeEntries_cons]
      constructor
      · rintro ⟨next, hn, between, hb, ha⟩
        exact ⟨between, ⟨next, hn, hb⟩, ha⟩
      · rintro ⟨between, ⟨next, hn, hb⟩, ha⟩
        exact ⟨next, hn, between, hb, ha⟩

theorem exists_merge_of_mergeEntry {objects merged : Table Entity} {entry : String × Entity}
    (h : mergeEntry objects entry = .ok merged) {present : Entity}
    (hp : objects.get? entry.1 = some present) : ∃ value, present.merge entry.2 = .ok value := by
  obtain ⟨value, hj, _⟩ := mergeEntry_eq_ok h
  rw [hp] at hj
  cases hj with
  | both hm => exact ⟨value, hm⟩

theorem exists_mergeEntries_of_fuse {d other fused : Diagram} (h : d.fuse other = .ok fused) :
    ∃ objects, mergeEntries d.objects other.objects.entries = .ok objects ∧
      fused = d.fusedWith other objects := by
  unfold fuse at h
  split at h
  · cases h
  · cases hm : mergeEntries d.objects other.objects.entries with
    | error _ => rw [hm] at h; cases h
    | ok objects =>
        rw [hm] at h
        exact ⟨objects, rfl, (Except.ok.inj h).symm⟩

/-- Wherever a fusion that passed the check has got to, the next merge succeeds. -/
theorem exists_merge_of_fuse {d other fused : Diagram} (h : d.fuse other = .ok fused)
    {before after : List (String × Entity)} {entry : String × Entity}
    (he : other.objects.entries = before ++ entry :: after) :
    ∃ reached, mergeEntries d.objects before = .ok reached ∧
      ∀ present, reached.get? entry.1 = some present →
        ∃ merged, present.merge entry.2 = .ok merged := by
  obtain ⟨objects, hm, _⟩ := exists_mergeEntries_of_fuse h
  rw [he, mergeEntries_append] at hm
  obtain ⟨reached, hr, hrest⟩ := hm
  obtain ⟨next, hn, _⟩ := mergeEntries_cons.mp hrest
  exact ⟨reached, hr, fun present hp => exists_merge_of_mergeEntry hn hp⟩

/-! ## Fusing in place -/

/-- Merge entities into the table one after the other. The first that cannot be merged ends it,
and the table keeps those that were merged before. -/
def mergeInPlace (objects : Table Entity) :
    List (String × Entity) → Table Entity × Option ModelError
  | [] => (objects, none)
  | entry :: rest =>
    match mergeEntry objects entry with
    | .error error => (objects, some error)
    | .ok next => mergeInPlace next rest

/-- Change the first diagram into the fusion step by step; a step that fails ends it. -/
def fuseInPlace (d other : Diagram) : Diagram × Option ModelError :=
  match other.objects.entries.findSome? (conflict? d.objects) with
  | some conflict => (d, some conflict)
  | none =>
    match mergeInPlace d.objects other.objects.entries with
    | (objects, some error) => ({ d with objects := objects }, some error)
    | (objects, none) => (d.fusedWith other objects, none)

theorem mergeInPlace_of_mergeEntries {objects merged : Table Entity}
    {entries : List (String × Entity)} (h : mergeEntries objects entries = .ok merged) :
    mergeInPlace objects entries = (merged, none) := by
  induction entries generalizing objects with
  | nil => cases h; rfl
  | cons entry rest ih =>
      obtain ⟨next, hn, hrest⟩ := mergeEntries_cons.mp h
      simp only [mergeInPlace, hn, ih hrest]

theorem fuseInPlace_of_ok {d other fused : Diagram} (h : d.fuse other = .ok fused) :
    d.fuseInPlace other = (fused, none) := by
  obtain ⟨objects, hm, rfl⟩ := exists_mergeEntries_of_fuse h
  have hc : other.objects.entries.findSome? (conflict? d.objects) = none :=
    (findSome?_conflict?_eq_none_iff _ _).mpr ((exists_fuse_iff d other).mp ⟨_, h⟩)
  simp only [fuseInPlace, hc, mergeInPlace_of_mergeEntries hm]

/-- A fusion in place that fails has changed nothing. -/
theorem fuseInPlace_of_error {d other : Diagram} {error : ModelError}
    (h : d.fuse other = .error error) : d.fuseInPlace other = (d, some error) := by
  simp only [fuseInPlace, (fuse_eq_error_iff d other error).mp h]

/-! ## All or nothing -/

theorem exists_fuse_error_iff (d other : Diagram) :
    (∃ error, d.fuse other = .error error) ↔
      ∃ key present incoming, d.objects.get? key = some present ∧
        other.objects.get? key = some incoming ∧ present.Clashes incoming := by
  rw [Except.exists_error_iff, exists_fuse_iff, Table.Compatible]
  simp only [← Entity.not_clashes_iff, Classical.not_forall, Classical.not_not, exists_prop,
    exists_and_left]

/-- The first clashing entity of the second diagram, in the order of its table, is what a fusion
that fails reports. -/
theorem fuse_eq_error_iff_first (d other : Diagram) (error : ModelError) :
    d.fuse other = .error error ↔
      ∃ before key incoming after present,
        other.objects.entries = before ++ (key, incoming) :: after ∧
        (∀ earlier ∈ before, ¬ ClashesAt d.objects earlier) ∧
        d.objects.get? key = some present ∧ present.Clashes incoming ∧
        error = .kindConflict key present.kind incoming.kind := by
  rw [fuse_eq_error_iff, List.findSome?_eq_some_iff]
  simp only [conflict?_eq_none_iff_not_clashesAt, conflict?_eq_some_iff]
  constructor
  · rintro ⟨before, ⟨key, incoming⟩, after, he, ⟨present, hp, hclash, herror⟩, hbefore⟩
    exact ⟨before, key, incoming, after, present, he, hbefore, hp, hclash, herror⟩
  · rintro ⟨before, key, incoming, after, present, he, hbefore, hp, hclash, herror⟩
    exact ⟨before, (key, incoming), after, he, ⟨present, hp, hclash, herror⟩, hbefore⟩

theorem exists_fuse_of_not_clashesAt {d other : Diagram}
    (h : ∀ entry ∈ other.objects.entries, ¬ ClashesAt d.objects entry) :
    ∃ fused, d.fuse other = .ok fused := by
  rw [exists_fuse_iff, ← findSome?_conflict?_eq_none_iff, List.findSome?_eq_none_iff]
  intro entry he
  exact (conflict?_eq_none_iff_not_clashesAt _ _).mpr (h entry he)

/-- A fusion fails exactly if the two diagrams hold declarations of different kinds under some
key. It then reports the first such key of the second diagram and leaves the first diagram as it
was. Otherwise no merge on the way fails, and neither does the fusion. -/
theorem fuse_all_or_nothing (d other : Diagram) :
    ((∃ error, d.fuse other = .error error) ↔
        ∃ key present incoming, d.objects.get? key = some present ∧
          other.objects.get? key = some incoming ∧ present.Clashes incoming) ∧
      (∀ error, d.fuse other = .error error ↔
        ∃ before key incoming after present,
          other.objects.entries = before ++ (key, incoming) :: after ∧
          (∀ earlier ∈ before, ¬ ClashesAt d.objects earlier) ∧
          d.objects.get? key = some present ∧ present.Clashes incoming ∧
          error = .kindConflict key present.kind incoming.kind) ∧
      (∀ error, d.fuse other = .error error → d.fuseInPlace other = (d, some error)) ∧
      ((∀ entry ∈ other.objects.entries, ¬ ClashesAt d.objects entry) →
        (∃ fused, d.fuse other = .ok fused ∧ d.fuseInPlace other = (fused, none)) ∧
          ∀ before entry after, other.objects.entries = before ++ entry :: after →
            ∃ reached, mergeEntries d.objects before = .ok reached ∧
              ∀ present, reached.get? entry.1 = some present →
                ∃ merged, present.merge entry.2 = .ok merged) := by
  refine ⟨exists_fuse_error_iff d other, fuse_eq_error_iff_first d other,
    fun error => fuseInPlace_of_error, ?_⟩
  intro hnone
  obtain ⟨fused, hf⟩ := exists_fuse_of_not_clashesAt hnone
  exact ⟨⟨fused, hf, fuseInPlace_of_ok hf⟩, fun _ _ _ he => exists_merge_of_fuse hf he⟩

/-- Of two conflicts the one that comes first in the second diagram is reported. -/
example :
    ({ objects := (Table.empty.insert "Shop" (.ofKind .classKind "Shop" [])).insert "Item"
        (.ofKind .classKind "Item" []) } : Diagram).fuse
      { objects := (Table.empty.insert "Item" (.ofKind .enumKind "Item" [])).insert "Shop"
          (.ofKind .interfaceKind "Shop" []) } =
      .error (.kindConflict "Item" .classKind .enumKind) := by
  rfl

end Diagram

end ClassDiagram
