import Mathlib.Data.Finset.Card
import Mathlib.Data.List.Induction

/-!
# First occurrences

Walking through a list, one finds values again and again. Listing each value
when it is found first gives a list without repetitions, in which a value
stands behind exactly the other values that were found before it.
-/

namespace ClassDiagram

section FirstOccurrence

variable {α β : Type} [DecidableEq β]

theorem eraseDups_append_singleton (ys : List β) (y : β) :
    (ys ++ [y]).eraseDups = if y ∈ ys then ys.eraseDups else ys.eraseDups ++ [y] := by
  rw [List.eraseDups_append]
  split
  · next hm => simp [List.removeAll, hm]
  · next hm => simp [List.removeAll, hm, List.eraseDups_cons]

theorem eraseDups_sublist (ys : List β) : ys.eraseDups.Sublist ys := by
  induction ys using List.reverseRecOn with
  | nil => exact List.Sublist.refl _
  | append_singleton ys y ih =>
      rw [eraseDups_append_singleton]
      split
      · exact ih.trans (List.sublist_append_left ys [y])
      · exact ih.append_right [y]

theorem eraseDups_eraseDups (ys : List β) : ys.eraseDups.eraseDups = ys.eraseDups := by
  induction ys using List.reverseRecOn with
  | nil => rfl
  | append_singleton ys y ih =>
      rw [eraseDups_append_singleton]
      split
      · exact ih
      · next hnew => rw [eraseDups_append_singleton, if_neg (by rwa [List.mem_eraseDups]), ih]

/-- Listing the values of each of two lists first makes no difference to the values of both. -/
theorem eraseDups_append_eraseDups (xs ys : List β) :
    (xs.eraseDups ++ ys.eraseDups).eraseDups = (xs ++ ys).eraseDups := by
  induction ys using List.reverseRecOn with
  | nil => rw [List.eraseDups_nil, List.append_nil, List.append_nil, eraseDups_eraseDups]
  | append_singleton ys y ih =>
      have hmem : y ∈ xs.eraseDups ++ ys.eraseDups ↔ y ∈ xs ++ ys := by
        simp only [List.mem_append, List.mem_eraseDups]
      rw [← List.append_assoc, eraseDups_append_singleton, eraseDups_append_singleton]
      by_cases hy : y ∈ ys
      · rw [if_pos hy, if_pos (List.mem_append_right xs hy), ih]
      · rw [if_neg hy, ← List.append_assoc, eraseDups_append_singleton, ih]
        simp only [hmem]

/-- The values that elements lead to, each once, come in the order of the first elements that
lead there. -/
theorem pairwise_findIdx_eraseDups (f : α → Option β) (xs : List α) :
    (xs.filterMap f).eraseDups.Pairwise fun y later =>
      xs.findIdx (f · = some y) < xs.findIdx (f · = some later) := by
  induction xs using List.reverseRecOn with
  | nil => exact List.Pairwise.nil
  | append_singleton xs x ih =>
      have hbound : ∀ y ∈ xs.filterMap f, xs.findIdx (f · = some y) < xs.length := by
        intro y hy
        obtain ⟨x', hx', hf⟩ := List.mem_filterMap.mp hy
        exact List.findIdx_lt_length_of_exists ⟨x', hx', decide_eq_true hf⟩
      have hold : ∀ y ∈ xs.filterMap f,
          (xs ++ [x]).findIdx (f · = some y) = xs.findIdx (f · = some y) := by
        intro y hy
        rw [List.findIdx_append, if_pos (hbound y hy)]
      have hpair : (xs.filterMap f).eraseDups.Pairwise fun y later =>
          (xs ++ [x]).findIdx (f · = some y) < (xs ++ [x]).findIdx (f · = some later) := by
        apply ih.imp_of_mem
        intro y later hy hl hlt
        rwa [hold y (List.mem_eraseDups.mp hy), hold later (List.mem_eraseDups.mp hl)]
      rw [List.filterMap_append]
      cases hx : f x with
      | none =>
          rw [List.filterMap_cons_none hx, List.filterMap_nil, List.append_nil]
          exact hpair
      | some new =>
          rw [List.filterMap_cons_some hx, List.filterMap_nil, eraseDups_append_singleton]
          split
          · exact hpair
          · next hnew =>
              refine List.pairwise_append.mpr ⟨hpair, List.pairwise_singleton _ _, ?_⟩
              intro y hy later hl
              rw [List.mem_singleton.mp hl, hold y (List.mem_eraseDups.mp hy)]
              have hnone : ¬ xs.findIdx (f · = some new) < xs.length := by
                intro hlt
                obtain ⟨x', hx', hf⟩ := List.findIdx_lt_length.mp hlt
                exact hnew (List.mem_filterMap.mpr ⟨x', hx', of_decide_eq_true hf⟩)
              rw [List.findIdx_append, if_neg hnone]
              exact Nat.lt_add_left _ (hbound y (List.mem_eraseDups.mp hy))

/-- The values that the elements of `xs` lead to, each once, in the order of the first elements
that lead there. -/
structure ListsFirst (f : α → Option β) (xs : List α) (ys : List β) : Prop where
  mem_iff : ∀ y, y ∈ ys ↔ ∃ x ∈ xs, f x = some y
  order : ys.Pairwise fun y later =>
    xs.findIdx (f · = some y) < xs.findIdx (f · = some later)

theorem listsFirst_eraseDups (f : α → Option β) (xs : List α) :
    ListsFirst f xs (xs.filterMap f).eraseDups where
  mem_iff y := by rw [List.mem_eraseDups, List.mem_filterMap]
  order := pairwise_findIdx_eraseDups f xs

theorem ListsFirst.nodup {f : α → Option β} {xs : List α} {ys : List β}
    (h : ListsFirst f xs ys) : ys.Nodup := by
  apply h.order.imp
  rintro y later hlt rfl
  omega

/-! ## The place of a value -/

theorem card_toFinset_eq (ys : List β) : ys.toFinset.card = ys.eraseDups.length := by
  have hnodup : ys.eraseDups.Nodup := by
    simpa using (listsFirst_eraseDups some ys).nodup
  have hsame : ys.eraseDups.toFinset = ys.toFinset := by
    ext y
    simp
  rw [← hsame, List.toFinset_card_of_nodup hnodup]

theorem takeWhile_ne_append {seen : List β} {y : β} (h : y ∉ seen) (rest : List β) :
    (seen ++ rest).takeWhile (· ≠ y) = seen ++ rest.takeWhile (· ≠ y) := by
  apply List.takeWhile_append_of_pos
  intro other ho
  simpa using fun he : other = y => h (he ▸ ho)

/-- A value stands behind as many values as there are different ones before it comes first. -/
theorem idxOf_eraseDups (ys : List β) (y : β) :
    ys.eraseDups.idxOf y = (ys.takeWhile (· ≠ y)).toFinset.card := by
  rw [card_toFinset_eq]
  by_cases hy : y ∈ ys
  · obtain ⟨seen, rest, rfl, hseen⟩ := List.eq_append_cons_of_mem hy
    have hnew : y ∉ seen.eraseDups := fun hm => hseen (List.mem_eraseDups.mp hm)
    have hfirst : (((y :: rest).removeAll seen).eraseDups).idxOf y = 0 := by
      simp [List.removeAll, hseen, List.eraseDups_cons]
    rw [takeWhile_ne_append hseen, List.takeWhile_cons_of_neg (by simp), List.append_nil,
      List.eraseDups_append, List.idxOf_append_of_notMem hnew, hfirst, Nat.add_zero]
  · have hnew : y ∉ ys.eraseDups := fun hm => hy (List.mem_eraseDups.mp hm)
    have htake := takeWhile_ne_append hy []
    rw [List.append_nil, List.takeWhile_nil, List.append_nil] at htake
    rw [htake, List.idxOf_of_notMem hnew]

end FirstOccurrence

end ClassDiagram
