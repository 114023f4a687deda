import ClassDiagram.Doc.Description
import ClassDiagram.Proofs.Lines

/-!
# What a description says

Reading a description loses no character but blanks: the text and the tags, spelled out one behind
the other, are the description less its blanks. Lines that hold blanks only say nothing at either
end, and so a description may be given by its lines.
-/

namespace ClassDiagram

open Text

namespace Tag

/-- The characters of a tag in the order in which a description has them. -/
def spelled (tag : Tag) : List Char :=
  '@' :: tag.name.toList ++ tag.params.flatMap String.toList ++ tag.value.toList

theorem solid_spelled_ofParts (name rest : List Char) :
    solid (ofParts name rest).spelled = solid ('@' :: name ++ rest) := by
  have hrest : rest.takeWhile (!isBlank ·) ++ rest.dropWhile (!isBlank ·) = rest :=
    List.takeWhile_append_dropWhile
  by_cases hp : (takesParam (String.ofList name) && !(rest.takeWhile (!isBlank ·)).isEmpty) = true
  · have hparts : (ofParts name rest).spelled =
        '@' :: name ++ rest.takeWhile (!isBlank ·) ++ trim (rest.dropWhile (!isBlank ·)) := by
      rw [ofParts, if_pos hp]
      simp [spelled]
    rw [hparts, solid_append, solid_trim, ← solid_append, List.append_assoc, hrest]
  · have hparts : (ofParts name rest).spelled = '@' :: name ++ trim rest := by
      rw [ofParts, if_neg hp]
      simp [spelled]
    rw [hparts, solid_append, solid_trim, ← solid_append]

theorem solid_dropWhile_isGap (s : List Char) : solid (s.dropWhile isGap) = solid s := by
  have hgap : ∀ c ∈ s.takeWhile isGap, isBlank c = true := fun c hc =>
    isBlank_of_isGap (List.mem_takeWhile_imp hc)
  calc
    solid (s.dropWhile isGap) = solid (s.takeWhile isGap) ++ solid (s.dropWhile isGap) := by
      rw [solid_of_blank hgap, List.nil_append]
    _ = solid s := by rw [← solid_append, List.takeWhile_append_dropWhile]

/-- A line opens a tag just when a name stands behind its first character, an at sign. -/
theorem ofLine?_eq_some_iff (line : List Char) (tag : Tag) :
    ofLine? line = some tag ↔ ∃ rest, line = '@' :: rest ∧ rest.takeWhile isNameChar ≠ [] ∧
      tag = ofParts (rest.takeWhile isNameChar) ((rest.dropWhile isNameChar).dropWhile isGap) := by
  constructor
  · intro h
    unfold ofLine? at h
    split at h
    · next rest =>
        by_cases hname : rest.takeWhile isNameChar = []
        · simp [hname] at h
        · refine ⟨rest, rfl, hname, ?_⟩
          simpa [hname] using h.symm
    · cases h
  · rintro ⟨rest, rfl, hname, rfl⟩
    simp [ofLine?, hname]

/-- A tag is spelled like the line that opens it. -/
theorem solid_spelled_of_ofLine? {line : List Char} {tag : Tag} (h : ofLine? line = some tag) :
    solid tag.spelled = solid line := by
  obtain ⟨rest, rfl, _, rfl⟩ := (ofLine?_eq_some_iff line tag).mp h
  rw [solid_spelled_ofParts, solid_append, solid_dropWhile_isGap, ← solid_append, List.cons_append,
    List.takeWhile_append_dropWhile]

theorem solid_spelled_extend (tag : Tag) (more : String) :
    solid (tag.extend more).spelled = solid tag.spelled ++ solid more.toList := by
  rw [extend]
  split
  · next hmore => rw [hmore, String.toList_empty, solid_nil, List.append_nil]
  · split
    · next hvalue =>
        have hs : ({ tag with value := more } : Tag).spelled = tag.spelled ++ more.toList := by
          simp [spelled, hvalue]
        rw [hs, solid_append]
    · have hs : ({ tag with value := tag.value ++ " " ++ more } : Tag).spelled =
          tag.spelled ++ ' ' :: more.toList := by
        simp [spelled]
      rw [hs, solid_append, solid_cons_blank (by decide)]

theorem solid_spelled_extendLines (tag : Tag) (more : List (List Char)) :
    solid (tag.extendLines more).spelled = solid tag.spelled ++ solid more.flatten := by
  induction more generalizing tag with
  | nil => simp [extendLines]
  | cons line rest ih =>
      change solid ((tag.extend (String.ofList line)).extendLines rest).spelled = _
      rw [ih, solid_spelled_extend, String.toList_ofList, List.flatten_cons, solid_append,
        List.append_assoc]

end Tag

namespace Comment

/-- The characters of a comment in the order in which a description has them. -/
def spelled (c : Comment) : List Char :=
  c.text.toList ++ c.tags.flatMap Tag.spelled

theorem ofLines_eq (ls : List (List Char)) :
    ofLines ls =
      { text := String.ofList (trim (unlines (sections (ls.map trim)).1))
        tags := (sections (ls.map trim)).2 } := rfl

/-! ## One line more -/

theorem sections_cons_plain {line : List Char} (h : Tag.ofLine? line = none)
    (rest : List (List Char)) :
    sections (line :: rest) = (line :: (sections rest).1, (sections rest).2) := by
  simp only [sections, h]

theorem sections_cons_tag {line : List Char} {tag : Tag} (h : Tag.ofLine? line = some tag)
    (rest : List (List Char)) :
    sections (line :: rest) = ([], tag.extendLines (sections rest).1 :: (sections rest).2) := by
  simp only [sections, h]

/-! ## Nothing is lost -/

theorem solid_sections (ls : List (List Char)) :
    solid (sections ls).1.flatten ++ solid ((sections ls).2.flatMap Tag.spelled) =
      solid ls.flatten := by
  induction ls with
  | nil => rfl
  | cons line rest ih =>
      cases h : Tag.ofLine? line with
      | none =>
          rw [sections_cons_plain h, List.flatten_cons, solid_append, List.append_assoc, ih,
            List.flatten_cons, solid_append]
      | some tag =>
          -- The free lines behind a tag become its value; they keep their place in the spelling.
          rw [sections_cons_tag h, List.flatMap_cons, solid_append,
            Tag.solid_spelled_extendLines, Tag.solid_spelled_of_ofLine? h, List.append_assoc, ih]
          simp

theorem solid_unlines (ls : List (List Char)) : solid (unlines ls) = solid ls.flatten := by
  induction ls with
  | nil => rfl
  | cons l rest ih =>
      by_cases h : rest = []
      · simp [h]
      · rw [unlines_cons l h, solid_append, solid_cons_blank (by decide), ih, List.flatten_cons,
          solid_append]

theorem solid_spelled_ofLines (ls : List (List Char)) :
    solid (ofLines ls).spelled = solid ls.flatten := by
  calc
    solid (ofLines ls).spelled =
        solid (trim (unlines (sections (ls.map trim)).1)) ++
          solid ((sections (ls.map trim)).2.flatMap Tag.spelled) := by
      rw [ofLines_eq, spelled, solid_append, String.toList_ofList]
    _ = solid (ls.map trim).flatten := by
      rw [solid_trim, solid_unlines, solid_sections]
    _ = solid ls.flatten := solid_flatten_map_trim ls

/-- No character of a description but its blanks is lost, doubled, made up or moved: less the
blanks, a description is its text followed by its tags as they are spelled. -/
theorem solid_spelled_ofDescription (text : String) :
    solid (ofDescription text).spelled = solid text.toList := by
  rw [ofDescription, solid_spelled_ofLines, solid_flatten_lines]

/-! ## Lines that say nothing -/

theorem extendLines_append_nil (tag : Tag) (more : List (List Char)) :
    tag.extendLines (more ++ [[]]) = tag.extendLines more := by
  rw [Tag.extendLines, List.foldl_append]
  rfl

theorem sections_append_nil (ls : List (List Char)) :
    sections (ls ++ [[]]) = sections ls ∨
      sections (ls ++ [[]]) = ((sections ls).1 ++ [[]], (sections ls).2) := by
  induction ls with
  | nil => exact Or.inr rfl
  | cons line rest ih =>
      rw [List.cons_append]
      cases h : Tag.ofLine? line with
      | none =>
          rw [sections_cons_plain h, sections_cons_plain h]
          rcases ih with ih | ih
          · exact Or.inl (by rw [ih])
          · exact Or.inr (by rw [ih]; rfl)
      | some tag =>
          rw [sections_cons_tag h, sections_cons_tag h]
          rcases ih with ih | ih
          · exact Or.inl (by rw [ih])
          · exact Or.inl (by rw [ih, extendLines_append_nil])

theorem ofLines_append_nil (ls : List (List Char)) : ofLines (ls ++ [[]]) = ofLines ls := by
  have hmap : (ls ++ [[]]).map trim = ls.map trim ++ [[]] := List.map_append
  rw [ofLines_eq, ofLines_eq, hmap]
  rcases sections_append_nil (ls.map trim) with h | h
  · rw [h]
  · rw [h, trim_unlines_append_nil]

theorem ofLines_nil_cons (ls : List (List Char)) : ofLines ([] :: ls) = ofLines ls := by
  have hmap : ([] :: ls).map trim = [] :: ls.map trim := rfl
  have hnil : Tag.ofLine? [] = none := rfl
  rw [ofLines_eq, ofLines_eq, hmap, sections_cons_plain hnil, trim_unlines_nil_cons]

/-- Only what stands between the blanks of each line counts. -/
theorem ofLines_congr {ls ms : List (List Char)} (h : ls.map trim = ms.map trim) :
    ofLines ls = ofLines ms := by
  rw [ofLines_eq, ofLines_eq, h]

theorem ofLines_closeLines (ls : List (List Char)) : ofLines (closeLines ls) = ofLines ls := by
  have hmap : ((closeLines ls) ++ [[]]).map trim = (closeLines ls).map trim ++ [[]] :=
    List.map_append
  rcases map_trim_closeLines ls with h | h
  · exact ofLines_congr h.symm
  · rw [← ofLines_append_nil]
    exact ofLines_congr (hmap.trans h.symm)

/-- A description says what its pieces between line feeds say. -/
theorem ofDescription_eq (text : String) :
    ofDescription text = ofLines (pieces (· == '\n') text.toList) := by
  rw [ofDescription, lines, ofLines_closeLines]

/-- Lines written one behind the other say what they say as lines. -/
theorem ofDescription_unlines {ls : List (List Char)} (h : ∀ l ∈ ls, '\n' ∉ l) :
    ofDescription (String.ofList (unlines ls)) = ofLines ls := by
  rw [ofDescription_eq, String.toList_ofList]
  by_cases hne : ls = []
  · rw [hne]
    rfl
  · rw [pieces_unlines hne h]

end Comment

end ClassDiagram
