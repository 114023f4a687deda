import ClassDiagram.Text.Lines
import Mathlib.Data.List.DropRight

/-!
# Blanks around a text and the lines inside it

Trimming takes blanks from the two ends of a text and nothing else, and a text without blanks at
its ends is left as it is. The end of a line is blank too, so cutting a text into lines loses
blanks only, and lines that are written one behind the other are found again when the text is cut.
-/

namespace ClassDiagram.Text

/-! ## Trimming -/

/-- There is no blank at either end. -/
structure Trimmed (s : List Char) : Prop where
  head : ∀ c ∈ s.head?, isBlank c = false
  last : ∀ c ∈ s.getLast?, isBlank c = false

theorem trimEnd_eq (s : List Char) : trimEnd s = s.rdropWhile isBlank := rfl

/-- What trimming takes away stands at the ends and is blank. -/
theorem exists_eq_append_trim (s : List Char) :
    ∃ front back, s = front ++ trim s ++ back ∧
      (∀ c ∈ front, isBlank c = true) ∧ ∀ c ∈ back, isBlank c = true := by
  refine ⟨s.takeWhile isBlank, (trimStart s).rtakeWhile isBlank, ?_, ?_, ?_⟩
  · calc
      s = s.takeWhile isBlank ++ trimStart s := List.takeWhile_append_dropWhile.symm
      _ = s.takeWhile isBlank ++ (trim s ++ (trimStart s).rtakeWhile isBlank) :=
        congrArg _ List.rdropWhile_append_rtakeWhile.symm
      _ = s.takeWhile isBlank ++ trim s ++ (trimStart s).rtakeWhile isBlank :=
        (List.append_assoc ..).symm
  · intro c hc
    exact List.mem_takeWhile_imp hc
  · intro c hc
    exact List.mem_rtakeWhile_imp hc

theorem trimmed_trim (s : List Char) : Trimmed (trim s) := by
  constructor
  · intro c hc
    obtain ⟨behind, hstart⟩ : trim s <+: trimStart s := List.rdropWhile_prefix _ _
    have hhead : (trimStart s).head? = some c := by
      rw [← hstart, List.head?_append, hc, Option.some_or]
    have hnot := List.head?_dropWhile_not isBlank s
    rw [show s.dropWhile isBlank = trimStart s from rfl, hhead] at hnot
    exact hnot
  · intro c hc
    have hne : trim s ≠ [] := by
      intro hn
      rw [hn] at hc
      cases hc
    have hlast := List.rdropWhile_last_not isBlank (trimStart s) hne
    rw [List.getLast?_eq_getLast_of_ne_nil hne] at hc
    obtain rfl := Option.some.inj hc
    exact Bool.eq_false_iff.mpr hlast

theorem trim_of_trimmed {s : List Char} (h : Trimmed s) : trim s = s := by
  have hstart : trimStart s = s := by
    cases s with
    | nil => rfl
    | cons c rest => exact List.dropWhile_cons_of_neg (Bool.eq_false_iff.mp (h.head c rfl))
  rw [trim, hstart, trimEnd_eq, List.rdropWhile_eq_self_iff]
  intro hne
  exact Bool.eq_false_iff.mp (h.last _ (List.getLast?_eq_getLast_of_ne_nil hne))

theorem trimmed_nil : Trimmed [] :=
  ⟨by simp, by simp⟩

theorem trimmed_of_forall {s : List Char} (h : ∀ c ∈ s, isBlank c = false) : Trimmed s :=
  ⟨fun c hc => h c (List.mem_of_mem_head? hc), fun c hc => h c (List.mem_of_mem_getLast? hc)⟩

/-- Nothing is lost at the seams of texts that have no blanks at their ends. -/
theorem Trimmed.append {s t : List Char} (hs : Trimmed s) (ht : Trimmed t) (hsne : s ≠ [])
    (htne : t ≠ []) (between : List Char) : Trimmed (s ++ between ++ t) := by
  obtain ⟨c, rest, rfl⟩ := List.exists_cons_of_ne_nil hsne
  constructor
  · exact hs.head
  · intro e he
    rw [List.getLast?_append_of_ne_nil _ htne] at he
    exact ht.last e he

theorem trimStart_blank_append {front : List Char} (h : ∀ c ∈ front, isBlank c = true)
    (s : List Char) : trimStart (front ++ s) = trimStart s :=
  List.dropWhile_append_of_pos h

theorem trimEnd_append_blank (s : List Char) {back : List Char}
    (h : ∀ c ∈ back, isBlank c = true) : trimEnd (s ++ back) = trimEnd s := by
  rw [trimEnd, List.reverse_append, List.dropWhile_append_of_pos]
  · rfl
  · intro c hc
    exact h c (List.mem_reverse.mp hc)

@[simp] theorem trim_blank_append {front : List Char} (h : ∀ c ∈ front, isBlank c = true)
    (s : List Char) : trim (front ++ s) = trim s := by
  rw [trim, trimStart_blank_append h, trim]

theorem trim_cons_blank {c : Char} (h : isBlank c = true) (s : List Char) :
    trim (c :: s) = trim s :=
  trim_blank_append (List.forall_mem_singleton.mpr h) s

@[simp] theorem trim_append_blank (s : List Char) {back : List Char}
    (h : ∀ c ∈ back, isBlank c = true) : trim (s ++ back) = trim s := by
  by_cases hs : trimStart s = []
  · have hall : ∀ c ∈ s, isBlank c = true := List.dropWhile_eq_nil_iff.mp hs
    have hnil : trim back = trim [] := by
      rw [← List.append_nil back, trim_blank_append h]
    have hnil' : trim s = trim [] := by
      rw [← List.append_nil s, trim_blank_append hall]
    rw [trim_blank_append hall, hnil, hnil']
  · have hstart : trimStart (s ++ back) = trimStart s ++ back := by
      rw [trimStart, List.dropWhile_append, if_neg (by simpa [trimStart] using hs), trimStart]
    rw [trim, hstart, trimEnd_append_blank _ h, trim]

theorem feed_notMem_trim {s : List Char} (h : '\n' ∉ s) : '\n' ∉ trim s := by
  obtain ⟨front, back, hs, _, _⟩ := exists_eq_append_trim s
  intro hm
  apply h
  rw [hs]
  exact List.mem_append_left _ (List.mem_append_right _ hm)

theorem feed_notMem_of_forall {s : List Char} (h : ∀ c ∈ s, isBlank c = false) : '\n' ∉ s :=
  fun hm => absurd (h '\n' hm) (by decide)

/-! ## The characters that are no blanks -/

/-- The characters of a text that are no blanks, in their order. -/
def solid (s : List Char) : List Char :=
  s.filter (!isBlank ·)

@[simp] theorem solid_nil : solid [] = [] := rfl

@[simp] theorem solid_append (s t : List Char) : solid (s ++ t) = solid s ++ solid t :=
  List.filter_append s t

theorem solid_cons_blank {c : Char} (h : isBlank c = true) (s : List Char) :
    solid (c :: s) = solid s := by
  simp [solid, h]

theorem solid_of_blank {s : List Char} (h : ∀ c ∈ s, isBlank c = true) : solid s = [] := by
  simpa [solid, List.filter_eq_nil_iff] using h

theorem solid_flatten (ls : List (List Char)) : solid ls.flatten = (ls.map solid).flatten :=
  List.filter_flatten

@[simp] theorem solid_trim (s : List Char) : solid (trim s) = solid s := by
  obtain ⟨front, back, hs, hfront, hback⟩ := exists_eq_append_trim s
  calc
    solid (trim s) = solid front ++ solid (trim s) ++ solid back := by
      rw [solid_of_blank hfront, solid_of_blank hback, List.nil_append, List.append_nil]
    _ = solid s := by
      rw [← solid_append, ← solid_append, ← hs]

theorem solid_flatten_map_trim (ls : List (List Char)) :
    solid (ls.map trim).flatten = solid ls.flatten := by
  rw [solid_flatten, solid_flatten, List.map_map]
  exact congrArg List.flatten (List.map_congr_left fun l _ => solid_trim l)

/-! ## Lines one behind the other -/

theorem pieces_eq_splitOnP {α : Type} (sep : α → Bool) (s : List α) :
    pieces sep s = s.splitOnP sep := by
  induction s with
  | nil => rfl
  | cons c rest ih => rw [pieces, ih, List.splitOnP_cons_eq_if_modifyHead]

theorem pieces_eq_splitOn (c : Char) (s : List Char) : pieces (· == c) s = s.splitOn c :=
  pieces_eq_splitOnP _ s

/-- Pieces that were joined by a separator are found again. -/
theorem pieces_intercalate (c : Char) {ls : List (List Char)} (hne : ls ≠ [])
    (h : ∀ l ∈ ls, c ∉ l) : pieces (· == c) ([c].intercalate ls) = ls := by
  rw [pieces_eq_splitOn, List.splitOn_intercalate c h hne]

@[simp] theorem unlines_singleton (l : List Char) : unlines [l] = l := by
  simp [unlines]

theorem unlines_cons (l : List Char) {ls : List (List Char)} (h : ls ≠ []) :
    unlines (l :: ls) = l ++ '\n' :: unlines ls := by
  obtain ⟨l', rest, rfl⟩ := List.exists_cons_of_ne_nil h
  rw [unlines, List.intercalate_cons_cons, List.append_assoc]
  rfl

theorem unlines_append {ls ms : List (List Char)} (hls : ls ≠ []) (hms : ms ≠ []) :
    unlines (ls ++ ms) = unlines ls ++ '\n' :: unlines ms := by
  induction ls with
  | nil => exact absurd rfl hls
  | cons l rest ih =>
      by_cases hrest : rest = []
      · rw [hrest, unlines_singleton, List.singleton_append, unlines_cons l hms]
      · rw [List.cons_append, unlines_cons l (by simp [hrest]), unlines_cons l hrest, ih hrest,
          List.append_assoc, List.cons_append]

/-- Lines that were written one behind the other are the pieces of the text. -/
theorem pieces_unlines {ls : List (List Char)} (hne : ls ≠ []) (h : ∀ l ∈ ls, '\n' ∉ l) :
    pieces (· == '\n') (unlines ls) = ls :=
  pieces_intercalate '\n' hne h

theorem unlines_pieces (s : List Char) : unlines (pieces (· == '\n') s) = s := by
  rw [pieces_eq_splitOn, unlines, List.intercalate_splitOn]

theorem flatten_pieces {α : Type} (sep : α → Bool) (s : List α) :
    (pieces sep s).flatten = s.filter (!sep ·) := by
  induction s with
  | nil => rfl
  | cons c rest ih =>
      rw [pieces]
      by_cases hc : sep c = true
      · rw [if_pos hc, List.flatten_cons, List.nil_append, ih,
          List.filter_cons_of_neg (by simp [hc])]
      · obtain ⟨first, others, hp⟩ := List.exists_cons_of_ne_nil (pieces_ne_nil sep rest)
        rw [if_neg hc, List.filter_cons_of_pos (by simpa using hc), ← ih, hp, List.modifyHead_cons,
          List.flatten_cons, List.flatten_cons, List.cons_append]

/-- No stretch between separators holds one. -/
theorem sep_eq_false_of_mem_pieces {α : Type} {sep : α → Bool} {s piece : List α}
    (h : piece ∈ pieces sep s) : ∀ c ∈ piece, sep c = false := by
  intro c hc
  have hmem : c ∈ (pieces sep s).flatten := List.mem_flatten.mpr ⟨piece, h, hc⟩
  rw [flatten_pieces, List.mem_filter] at hmem
  simpa using hmem.2

theorem feed_notMem_of_mem_pieces {s l : List Char} (h : l ∈ pieces (· == '\n') s) : '\n' ∉ l :=
  fun hfeed => absurd (sep_eq_false_of_mem_pieces h '\n' hfeed) (by decide)

/-! ## The lines of a text -/

theorem trim_dropReturn (l : List Char) : trim (dropReturn l) = trim l := by
  unfold dropReturn
  split
  · next h =>
      have hr : ∀ c ∈ ['\r'], isBlank c = true := List.forall_mem_singleton.mpr rfl
      rw [← trim_append_blank l.dropLast hr, List.dropLast_append_getLast? _ h]
  · rfl

theorem closeLines_cons (l : List Char) {ls : List (List Char)} (h : ls ≠ []) :
    closeLines (l :: ls) = dropReturn l :: closeLines ls := by
  obtain ⟨l', rest, rfl⟩ := List.exists_cons_of_ne_nil h
  rfl

/-- Closing the lines takes away blanks, and perhaps an empty line behind the last. -/
theorem map_trim_closeLines (ls : List (List Char)) :
    ls.map trim = (closeLines ls).map trim ∨ ls.map trim = (closeLines ls).map trim ++ [[]] := by
  induction ls with
  | nil => exact Or.inl rfl
  | cons l rest ih =>
      cases rest with
      | nil =>
          cases l with
          | nil => exact Or.inr rfl
          | cons c l => exact Or.inl rfl
      | cons l' rest =>
          have hclosed : (closeLines (l :: l' :: rest)).map trim =
              trim l :: (closeLines (l' :: rest)).map trim := by
            rw [closeLines_cons l (List.cons_ne_nil l' rest), List.map_cons, trim_dropReturn]
          rw [List.map_cons, hclosed]
          rcases ih with ih | ih
          · exact Or.inl (congrArg _ ih)
          · exact Or.inr (congrArg _ ih)

/-- Only blanks get lost when a text is cut into lines. -/
theorem solid_flatten_lines (s : List Char) : solid (lines s).flatten = solid s := by
  have hpieces : solid (pieces (· == '\n') s).flatten = solid s := by
    rw [flatten_pieces, solid, solid, List.filter_filter]
    apply List.filter_congr
    intro c _
    by_cases hc : c = '\n'
    · rw [hc]
      decide
    · simp [hc]
  calc
    solid (lines s).flatten = solid ((lines s).map trim).flatten :=
      (solid_flatten_map_trim _).symm
    _ = solid ((pieces (· == '\n') s).map trim).flatten := by
      rcases map_trim_closeLines (pieces (· == '\n') s) with h | h
      · rw [h, lines]
      · rw [h, lines, List.flatten_append, solid_append]
        simp
    _ = solid (pieces (· == '\n') s).flatten := solid_flatten_map_trim _
    _ = solid s := hpieces

/-! ## Trimming lines as a whole -/

theorem isBlank_feed : ∀ c ∈ ['\n'], isBlank c = true :=
  List.forall_mem_singleton.mpr rfl

theorem trimStart_unlines {ls : List (List Char)} (h : ∀ l ∈ ls, Trimmed l) :
    trimStart (unlines ls) = unlines (ls.dropWhile List.isEmpty) := by
  induction ls with
  | nil => rfl
  | cons l rest ih =>
      cases l with
      | nil =>
          rw [List.dropWhile_cons_of_pos rfl, ← ih fun l hl => h l (List.mem_cons_of_mem _ hl)]
          by_cases hrest : rest = []
          · rw [hrest]
            rfl
          · rw [unlines_cons [] hrest]
            exact trimStart_blank_append isBlank_feed _
      | cons c l =>
          have hc : ¬ isBlank c = true :=
            Bool.eq_false_iff.mp ((h _ (List.mem_cons_self ..)).head c rfl)
          rw [List.dropWhile_cons_of_neg (by simp)]
          by_cases hrest : rest = []
          · rw [hrest, unlines_singleton]
            exact List.dropWhile_cons_of_neg hc
          · rw [unlines_cons _ hrest]
            exact List.dropWhile_cons_of_neg hc

theorem trimEnd_unlines {ls : List (List Char)} (h : ∀ l ∈ ls, Trimmed l) :
    trimEnd (unlines ls) = unlines (ls.rdropWhile List.isEmpty) := by
  induction ls using List.reverseRecOn with
  | nil => rfl
  | append_singleton ls l ih =>
      have hls : ∀ l ∈ ls, Trimmed l := fun l hl => h l (List.mem_append_left _ hl)
      have hl : Trimmed l := h l (List.mem_append_right _ (List.mem_singleton_self l))
      by_cases hempty : l = []
      · rw [hempty, List.rdropWhile_concat_pos _ _ _ rfl, ← ih hls]
        by_cases hne : ls = []
        · rw [hne]
          rfl
        · rw [unlines_append hne (by simp)]
          exact trimEnd_append_blank _ isBlank_feed
      · rw [List.rdropWhile_concat_neg _ _ _ (by simpa using hempty), trimEnd_eq,
          List.rdropWhile_eq_self_iff]
        intro hne
        apply Bool.eq_false_iff.mp
        apply hl.last
        rw [Option.mem_def, ← List.getLast?_eq_getLast_of_ne_nil hne]
        by_cases hls' : ls = []
        · simp [hls']
        · rw [unlines_append hls' (by simp), unlines_singleton, ← List.singleton_append,
            ← List.append_assoc, List.getLast?_append_of_ne_nil _ hempty]

/-- Trimming a text whose lines have no blanks at their ends takes away empty lines only. -/
theorem trim_unlines {ls : List (List Char)} (h : ∀ l ∈ ls, Trimmed l) :
    trim (unlines ls) =
      unlines ((ls.dropWhile List.isEmpty).rdropWhile List.isEmpty) := by
  have hdrop : ∀ l ∈ ls.dropWhile List.isEmpty, Trimmed l := fun l hl =>
    h l ((List.dropWhile_suffix _).subset hl)
  rw [trim, trimStart_unlines h, trimEnd_unlines hdrop]

/-- An empty line in front or behind makes no difference to a trimmed text. -/
theorem trim_unlines_nil_cons (ls : List (List Char)) :
    trim (unlines ([] :: ls)) = trim (unlines ls) := by
  by_cases h : ls = []
  · rw [h]
    rfl
  · rw [unlines_cons [] h]
    exact trim_cons_blank rfl _

theorem trim_unlines_append_nil (ls : List (List Char)) :
    trim (unlines (ls ++ [[]])) = trim (unlines ls) := by
  by_cases h : ls = []
  · rw [h]
    rfl
  · rw [unlines_append h (by simp)]
    exact trim_append_blank _ isBlank_feed

end ClassDiagram.Text
