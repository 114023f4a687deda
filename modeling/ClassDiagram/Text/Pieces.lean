import ClassDiagram.Text.Blank

/-!
# Cutting a text at separators

`pieces` cuts at every separator, so that adjacent separators leave empty pieces between them;
`tokens` keeps the pieces that hold something, which are the maximal runs without a separator.
-/

namespace ClassDiagram.Text

variable {α : Type}

/-- The stretches between separators, in order; there is always one more than separators. -/
def pieces (sep : α → Bool) : List α → List (List α)
  | [] => [[]]
  | c :: rest =>
    if sep c then [] :: pieces sep rest
    else (pieces sep rest).modifyHead (c :: ·)

/-- The maximal runs without a separator. -/
def tokens (sep : α → Bool) (s : List α) : List (List α) :=
  (pieces sep s).filter fun piece => !piece.isEmpty

/-- The words of a text, which are what stands between its blanks. -/
def words (s : String) : List String :=
  (tokens isBlank s.toList).map String.ofList

theorem pieces_ne_nil (sep : α → Bool) (s : List α) : pieces sep s ≠ [] := by
  induction s with
  | nil => simp [pieces]
  | cons c rest ih =>
    by_cases h : sep c = true
    · simp [pieces, h]
    · simpa [pieces, h] using ih

/-- A separator between two texts cuts them apart. -/
theorem pieces_append_sep (sep : α → Bool) (s t : List α) {d : α} (hd : sep d = true) :
    pieces sep (s ++ d :: t) = pieces sep s ++ pieces sep t := by
  induction s with
  | nil => simp [pieces, hd]
  | cons c rest ih =>
    by_cases h : sep c = true
    · simp [pieces, h, ih]
    · obtain ⟨w, ws, hw⟩ := List.exists_cons_of_ne_nil (pieces_ne_nil sep rest)
      simp [pieces, h, ih, hw]

theorem tokens_append_sep (sep : α → Bool) (s t : List α) {d : α} (hd : sep d = true) :
    tokens sep (s ++ d :: t) = tokens sep s ++ tokens sep t := by
  simp [tokens, pieces_append_sep sep s t hd]

end ClassDiagram.Text
