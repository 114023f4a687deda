import ClassDiagram.Proofs.Lines

/-!
# The runs between separators

Separators at either end of a text, or more than one of them in a row, make no difference to its
runs. The words of a text, which are its runs between blanks, are therefore the same when the text
is trimmed, cut into lines, or put together again with single spaces.
-/

namespace ClassDiagram.Text

/-! ## Runs -/

section Tokens

variable {α : Type} {sep : α → Bool}

@[simp] theorem tokens_nil : tokens sep [] = [] := rfl

theorem tokens_sep_cons {d : α} (hd : sep d = true) (s : List α) :
    tokens sep (d :: s) = tokens sep s :=
  tokens_append_sep sep [] s hd

theorem tokens_sep_append {front : List α} (h : ∀ c ∈ front, sep c = true) (s : List α) :
    tokens sep (front ++ s) = tokens sep s := by
  induction front with
  | nil => rfl
  | cons d front ih =>
      rw [List.cons_append, tokens_sep_cons (h d List.mem_cons_self),
        ih fun c hc => h c (List.mem_cons_of_mem _ hc)]

/-- Separators between two texts cut them apart; there has to be one. -/
theorem tokens_append_seps {gap : List α} (hne : gap ≠ []) (h : ∀ c ∈ gap, sep c = true)
    (s t : List α) : tokens sep (s ++ gap ++ t) = tokens sep s ++ tokens sep t := by
  obtain ⟨d, rest, rfl⟩ := List.exists_cons_of_ne_nil hne
  rw [List.append_assoc, List.cons_append, tokens_append_sep sep s _ (h d List.mem_cons_self),
    tokens_sep_append fun c hc => h c (List.mem_cons_of_mem _ hc)]

theorem tokens_append_of_sep (s : List α) {back : List α} (h : ∀ c ∈ back, sep c = true) :
    tokens sep (s ++ back) = tokens sep s := by
  by_cases hne : back = []
  · rw [hne, List.append_nil]
  · rw [← List.append_nil (s ++ back), tokens_append_seps hne h, tokens_nil, List.append_nil]

/-- What is dropped at the front does not count if it consists of separators. -/
theorem tokens_dropWhile {p : α → Bool} (h : ∀ c, p c = true → sep c = true) (s : List α) :
    tokens sep (s.dropWhile p) = tokens sep s := by
  have hfront : ∀ c ∈ s.takeWhile p, sep c = true := fun c hc => h c (List.mem_takeWhile_imp hc)
  calc
    tokens sep (s.dropWhile p) = tokens sep (s.takeWhile p ++ s.dropWhile p) :=
      (tokens_sep_append hfront _).symm
    _ = tokens sep s := by rw [List.takeWhile_append_dropWhile]

theorem pieces_of_forall {s : List α} (h : ∀ c ∈ s, sep c = false) : pieces sep s = [s] := by
  induction s with
  | nil => rfl
  | cons c rest ih =>
      rw [pieces, if_neg (Bool.eq_false_iff.mp (h c List.mem_cons_self)),
        ih fun d hd => h d (List.mem_cons_of_mem _ hd)]
      rfl

/-- A text that has no separator in it is one run. -/
theorem tokens_of_forall {s : List α} (hne : s ≠ []) (h : ∀ c ∈ s, sep c = false) :
    tokens sep s = [s] := by
  rw [tokens, pieces_of_forall h]
  simp [hne]

theorem mem_tokens {s run : List α} (h : run ∈ tokens sep s) :
    run ≠ [] ∧ ∀ c ∈ run, sep c = false := by
  obtain ⟨hpiece, hne⟩ := List.mem_filter.mp h
  exact ⟨by simpa using hne, sep_eq_false_of_mem_pieces hpiece⟩

/-- Runs with separators in front of each are found again. -/
theorem tokens_flatMap_spaced {β : Type} {gap run : β → List α} {items : List β}
    (hgap : ∀ i ∈ items, gap i ≠ [] ∧ ∀ c ∈ gap i, sep c = true)
    (hrun : ∀ i ∈ items, run i ≠ [] ∧ ∀ c ∈ run i, sep c = false) :
    tokens sep (items.flatMap fun i => gap i ++ run i) = items.map run := by
  induction items using List.reverseRecOn with
  | nil => rfl
  | append_singleton items last ih =>
      obtain ⟨hgne, hgsep⟩ := hgap last (by simp)
      obtain ⟨hrne, hrsep⟩ := hrun last (by simp)
      have hitems : tokens sep (items.flatMap fun i => gap i ++ run i) = items.map run :=
        ih (fun i hi => hgap i (List.mem_append_left _ hi))
          fun i hi => hrun i (List.mem_append_left _ hi)
      rw [List.flatMap_append, List.flatMap_singleton, ← List.append_assoc,
        tokens_append_seps hgne hgsep, hitems, tokens_of_forall hrne hrsep, List.map_append]
      rfl

end Tokens

/-! ## Words -/

theorem tokens_trimEnd (s : List Char) : tokens isBlank (trimEnd s) = tokens isBlank s := by
  have hback : ∀ c ∈ s.rtakeWhile isBlank, isBlank c = true := fun c hc =>
    List.mem_rtakeWhile_imp hc
  calc
    tokens isBlank (trimEnd s) = tokens isBlank (trimEnd s ++ s.rtakeWhile isBlank) :=
      (tokens_append_of_sep _ hback).symm
    _ = tokens isBlank s := by rw [trimEnd_eq, List.rdropWhile_append_rtakeWhile]

/-- Trimming a text keeps its words. -/
@[simp] theorem tokens_trim (s : List Char) : tokens isBlank (trim s) = tokens isBlank s := by
  rw [trim, tokens_trimEnd, trimStart, tokens_dropWhile fun _ hc => hc]

/-- The words of several lines are those of the one behind those of the other. -/
theorem tokens_unlines (ls : List (List Char)) :
    tokens isBlank (unlines ls) = ls.flatMap (tokens isBlank) := by
  induction ls with
  | nil => rfl
  | cons l rest ih =>
      by_cases hrest : rest = []
      · rw [hrest, unlines_singleton, List.flatMap_singleton]
      · rw [unlines_cons l hrest, tokens_append_sep isBlank l _ (by decide), ih, List.flatMap_cons]

theorem words_ofList (s : List Char) :
    words (String.ofList s) = (tokens isBlank s).map String.ofList := by
  rw [words, String.toList_ofList]

/-- Words that are joined by single spaces are found again. -/
theorem words_intercalate {ws : List String}
    (h : ∀ w ∈ ws, w.toList ≠ [] ∧ ∀ c ∈ w.toList, isBlank c = false) :
    words (" ".intercalate ws) = ws := by
  have htokens (ls : List (List Char)) (hls : ∀ l ∈ ls, l ≠ [] ∧ ∀ c ∈ l, isBlank c = false) :
      tokens isBlank ([' '].intercalate ls) = ls := by
    induction ls with
    | nil => rfl
    | cons l rest ih =>
        obtain ⟨hne, hsolid⟩ := hls l List.mem_cons_self
        have hrest := ih fun m hm => hls m (List.mem_cons_of_mem _ hm)
        cases rest with
        | nil => rw [List.intercalate_singleton, tokens_of_forall hne hsolid]
        | cons m rest =>
            have hspace : ∀ c ∈ [' '], isBlank c = true := List.forall_mem_singleton.mpr rfl
            rw [List.intercalate_cons_cons, tokens_append_seps (by simp) hspace, hrest,
              tokens_of_forall hne hsolid]
            rfl
  have hlists : ∀ l ∈ ws.map String.toList, l ≠ [] ∧ ∀ c ∈ l, isBlank c = false := by
    rw [List.forall_mem_map]
    exact h
  have hspace : " ".toList = [' '] := rfl
  rw [words, String.toList_intercalate, hspace, htokens _ hlists, List.map_map]
  simp [Function.comp_def]

end ClassDiagram.Text
