import ClassDiagram.Doc.Block
import ClassDiagram.Proofs.Description

/-!
# Well-formed blocks

A block in the usual layout has its delimiters on lines of their own and every line between them
behind a star. Whatever stands in these lines, be it stars, at signs or delimiters, such a block is
accepted under both policies and says what its lines say as a description.
-/

namespace ClassDiagram

open Text

namespace Text

theorem dropReturn_append_cons (s : List Char) {c : Char} (h : c ≠ '\r') (rest : List Char) :
    dropReturn (s ++ c :: rest) = s ++ c :: dropReturn rest := by
  have hlast : (s ++ c :: rest).getLast? = some '\r' ↔ rest.getLast? = some '\r' := by
    cases rest with
    | nil => simp [h]
    | cons d rest => simp [List.getLast?_cons_cons]
  by_cases hr : rest.getLast? = some '\r'
  · have hne : rest ≠ [] := by
      rintro rfl
      cases hr
    rw [dropReturn, if_pos (hlast.mpr hr), dropReturn, if_pos hr, ← List.singleton_append,
      ← List.append_assoc, List.dropLast_append_of_ne_nil hne, List.append_assoc]
    rfl
  · rw [dropReturn, if_neg (mt hlast.mp hr), dropReturn, if_neg hr]

theorem closeLines_append_singleton (ls : List (List Char)) (last : List Char) :
    closeLines (ls ++ [last]) = ls.map dropReturn ++ if last.isEmpty then [] else [last] := by
  induction ls with
  | nil => rfl
  | cons l rest ih =>
      rw [List.cons_append, closeLines_cons l (by simp), ih]
      rfl

end Text

namespace Block

/-! ## Delimiters and stars -/

theorem frame_delimited {before inner after : List Char} (hbefore : ∀ c ∈ before, isBlank c = true)
    (hafter : ∀ c ∈ after, isBlank c = true) (hinner : inner.head? ≠ some '/') :
    frame (before ++ ('/' :: '*' :: '*' :: inner ++ ['*', '/']) ++ after) = .inner inner := by
  have htrimmed : Trimmed ('/' :: '*' :: '*' :: (inner ++ ['*', '/'])) := by
    constructor
    · intro c hc
      obtain rfl := Option.some.inj hc
      decide
    · intro c hc
      have hlast : ('/' :: '*' :: '*' :: (inner ++ ['*', '/'])).getLast? = some '/' :=
        List.getLast?_append_of_ne_nil ('/' :: '*' :: '*' :: inner) (List.cons_ne_nil '*' ['/'])
      rw [hlast] at hc
      obtain rfl := Option.some.inj hc
      decide
  have htrim : trim (before ++ ('/' :: '*' :: '*' :: inner ++ ['*', '/']) ++ after) =
      '/' :: '*' :: '*' :: (inner ++ ['*', '/']) := by
    rw [trim_append_blank _ hafter, trim_blank_append hbefore]
    exact trim_of_trimmed htrimmed
  have hhead : (inner ++ ['*', '/']).head? ≠ some '/' := by
    cases inner with
    | nil => decide
    | cons c rest => exact hinner
  have hsuffix : ['*', '/'].isSuffixOf (inner ++ ['*', '/']) = true :=
    List.isSuffixOf_iff_suffix.mpr (List.suffix_append _ _)
  simp only [frame, htrim]
  rw [if_neg hhead, if_pos hsuffix]
  simp

/-- What is behind the star of a line, but for its blanks. -/
theorem exists_afterStar? {indent : List Char} (hi : ∀ c ∈ indent, isGap c = true)
    (rest : List Char) :
    ∃ content, afterStar? (indent ++ '*' :: rest) = some content ∧ trim content = trim rest := by
  have hdrop : (indent ++ '*' :: rest).dropWhile isGap = '*' :: rest := by
    rw [List.dropWhile_append_of_pos hi, List.dropWhile_cons_of_neg (by decide)]
  by_cases hspace : rest.head? = some ' '
  · obtain ⟨content, rfl⟩ := List.head?_eq_some_iff.mp hspace
    refine ⟨content, by rw [afterStar?, hdrop]; rfl, ?_⟩
    exact (trim_cons_blank rfl content).symm
  · refine ⟨rest, ?_, rfl⟩
    rw [afterStar?, hdrop]
    split
    · next content heq =>
        cases heq
        exact absurd rfl hspace
    · next content _ heq =>
        cases heq
        rfl
    · next hne => exact absurd rfl (hne rest)

theorem strayLines_eq_nil_iff (later : List (List Char)) :
    strayLines later = [] ↔ ∀ l ∈ later, isStray l = false := by
  rw [strayLines, List.map_eq_nil_iff, List.filter_eq_nil_iff]
  constructor
  · intro h l hl
    obtain ⟨i, hi, rfl⟩ := List.getElem_of_mem hl
    have hm : (later[i], 2 + i) ∈ later.zipIdx 2 := by
      rw [List.mk_mem_zipIdx_iff_le_and_getElem?_sub]
      simp
    exact Bool.eq_false_iff.mpr (h _ hm)
  · intro h e he
    exact Bool.eq_false_iff.mp (h e.1 (List.fst_mem_of_mem_zipIdx he))

/-! ## Blocks in the usual layout -/

/-- How a line ends. -/
inductive LineEnd
  | feed
  | returnFeed
deriving DecidableEq, Inhabited

/-- What stands in front of the line feed. -/
def LineEnd.mark : LineEnd → List Char
  | feed => []
  | returnFeed => ['\r']

/-- A line of a block: its text, and the way it is set behind a star. -/
structure Row where
  indent : List Char := []
  spaced : Bool := true
  text : List Char
  ending : LineEnd := .feed
  isGap_indent : indent.all isGap = true := by decide
  feed_notMem_text : '\n' ∉ text := by decide

/-- The characters of a line up to its line feed. -/
def Row.line (row : Row) : List Char :=
  row.indent ++ '*' :: ((if row.spaced then [' '] else []) ++ row.text ++ row.ending.mark)

/-- A block with its delimiters on lines of their own, and the white space around it. -/
structure Layout where
  before : List Char := []
  opening : LineEnd := .feed
  rows : List Row
  indent : List Char := []
  after : List Char := []
  isBlank_before : before.all isBlank = true := by decide
  isGap_indent : indent.all isGap = true := by decide
  isBlank_after : after.all isBlank = true := by decide

namespace Layout

/-- The texts of the lines, without stars. -/
def texts (layout : Layout) : List (List Char) :=
  layout.rows.map (·.text)

/-- What stands between the delimiters. -/
def inner (layout : Layout) : List Char :=
  layout.opening.mark ++ '\n' ::
    (layout.rows.flatMap (fun row => row.line ++ ['\n']) ++ layout.indent)

/-- The whole block. -/
def write (layout : Layout) : List Char :=
  layout.before ++ ('/' :: '*' :: '*' :: layout.inner ++ ['*', '/']) ++ layout.after

end Layout

theorem LineEnd.feed_notMem_mark (e : LineEnd) : '\n' ∉ e.mark := by
  cases e <;> decide

theorem LineEnd.isBlank_mark (e : LineEnd) : ∀ c ∈ e.mark, isBlank c = true := by
  cases e with
  | feed => exact List.forall_mem_nil _
  | returnFeed => exact List.forall_mem_singleton.mpr rfl

theorem LineEnd.dropReturn_mark (e : LineEnd) : dropReturn e.mark = [] := by
  cases e <;> rfl

theorem feed_notMem_of_isGap {s : List Char} (h : ∀ c ∈ s, isGap c = true) : '\n' ∉ s :=
  fun hm => absurd (h '\n' hm) (by decide)

theorem Row.feed_notMem_line (row : Row) : '\n' ∉ row.line := by
  have hspace : '\n' ∉ if row.spaced then [' '] else [] := by
    split <;> decide
  simp only [Row.line, List.mem_append, List.mem_cons, not_or]
  exact ⟨feed_notMem_of_isGap (List.all_eq_true.mp row.isGap_indent), by decide,
    ⟨hspace, row.feed_notMem_text⟩, row.ending.feed_notMem_mark⟩

/-- A line of a block is no stray line and holds its text. -/
theorem Row.exists_afterStar?_line (row : Row) :
    ∃ content, afterStar? (dropReturn row.line) = some content ∧
      trim content = trim row.text := by
  have hspace : ∀ c ∈ if row.spaced then [' '] else [], isBlank c = true := by
    split
    · exact List.forall_mem_singleton.mpr rfl
    · exact List.forall_mem_nil _
  rw [Row.line, dropReturn_append_cons _ (by decide)]
  obtain ⟨content, hcontent, htrim⟩ := exists_afterStar? (List.all_eq_true.mp row.isGap_indent)
    (dropReturn ((if row.spaced then [' '] else []) ++ row.text ++ row.ending.mark))
  refine ⟨content, hcontent, ?_⟩
  rw [htrim, trim_dropReturn, trim_append_blank _ row.ending.isBlank_mark,
    trim_blank_append hspace]

theorem unlines_append_singleton (ls : List (List Char)) (last : List Char) :
    unlines (ls ++ [last]) = ls.flatMap (· ++ ['\n']) ++ last := by
  induction ls with
  | nil => exact unlines_singleton last
  | cons l rest ih =>
      rw [List.cons_append, unlines_cons l (by simp), ih, List.flatMap_cons]
      simp

namespace Layout

/-- The lines behind the opening: one for each row, and that of the closing delimiter if it is
set in. -/
def later (layout : Layout) : List (List Char) :=
  layout.rows.map (fun row => dropReturn row.line) ++
    if layout.indent.isEmpty then [] else [layout.indent]

theorem lines_inner (layout : Layout) : lines layout.inner = [] :: layout.later := by
  have hinner : layout.inner =
      unlines (layout.opening.mark :: (layout.rows.map Row.line ++ [layout.indent])) := by
    rw [unlines_cons _ (by simp), unlines_append_singleton, List.flatMap_map]
    rfl
  have hfeed : ∀ l ∈ layout.opening.mark :: (layout.rows.map Row.line ++ [layout.indent]),
      '\n' ∉ l := by
    intro l hl
    rcases List.mem_cons.mp hl with rfl | hl
    · exact layout.opening.feed_notMem_mark
    · rcases List.mem_append.mp hl with hl | hl
      · obtain ⟨row, _, rfl⟩ := List.mem_map.mp hl
        exact row.feed_notMem_line
      · rw [List.mem_singleton.mp hl]
        exact feed_notMem_of_isGap (List.all_eq_true.mp layout.isGap_indent)
  rw [lines, hinner, pieces_unlines (List.cons_ne_nil _ _) hfeed, closeLines_cons _ (by simp),
    LineEnd.dropReturn_mark, closeLines_append_singleton, List.map_map]
  rfl

theorem afterStar?_indent (layout : Layout) : afterStar? layout.indent = none := by
  rw [afterStar?, List.dropWhile_eq_nil_iff.mpr (List.all_eq_true.mp layout.isGap_indent)]

theorem strayLines_later (layout : Layout) : strayLines layout.later = [] := by
  rw [strayLines_eq_nil_iff]
  intro l hl
  rcases List.mem_append.mp hl with hl | hl
  · obtain ⟨row, _, rfl⟩ := List.mem_map.mp hl
    obtain ⟨content, hcontent, _⟩ := row.exists_afterStar?_line
    simp [isStray, hcontent]
  · split at hl
    · cases hl
    · rw [List.mem_singleton.mp hl]
      have hblank : layout.indent.all isBlank = true := by
        rw [List.all_eq_true]
        intro c hc
        exact isBlank_of_isGap (List.all_eq_true.mp layout.isGap_indent c hc)
      simp [isStray, hblank]

/-- The lines of a block without their stars say what their texts say. -/
theorem ofLines_contents (layout : Layout) :
    Comment.ofLines (contents ([] :: layout.later)) = Comment.ofLines layout.texts := by
  have hrows : (layout.rows.map fun row => (afterStar? (dropReturn row.line)).getD []).map trim =
      layout.texts.map trim := by
    rw [texts, List.map_map, List.map_map]
    apply List.map_congr_left
    intro row _
    obtain ⟨content, hcontent, htrim⟩ := row.exists_afterStar?_line
    simp [hcontent, htrim]
  have hcontents : contents ([] :: layout.later) =
      [] :: ((layout.rows.map fun row => (afterStar? (dropReturn row.line)).getD []) ++
        if layout.indent.isEmpty then [] else [[]]) := by
    rw [contents, later, List.map_append, List.map_map]
    by_cases hempty : layout.indent.isEmpty = true
    · rw [if_pos hempty, if_pos hempty]
      rfl
    · rw [if_neg hempty, if_neg hempty, List.map_singleton, afterStar?_indent]
      rfl
  rw [hcontents, Comment.ofLines_nil_cons]
  split
  · rw [List.append_nil]
    exact Comment.ofLines_congr hrows
  · rw [Comment.ofLines_append_nil]
    exact Comment.ofLines_congr hrows

end Layout

theorem readUnder_of_read {raw : String} {found : Option Comment} (h : read raw = .ok found)
    (policy : DocPolicy) : readUnder policy raw = .ok found := by
  cases policy <;> simp [readUnder, h]

/-- A block in the usual layout is accepted under both policies and read like the description that
has the same lines. -/
theorem readUnder_write (layout : Layout) (policy : DocPolicy) :
    readUnder policy (String.ofList layout.write) =
      .ok (some (Comment.ofDescription (String.ofList (unlines layout.texts)))) := by
  have hhead : layout.inner.head? ≠ some '/' := by
    rw [Layout.inner]
    cases layout.opening <;> simp [LineEnd.mark]
  have hframe : frame layout.write = .inner layout.inner :=
    frame_delimited (List.all_eq_true.mp layout.isBlank_before)
      (List.all_eq_true.mp layout.isBlank_after) hhead
  have hfeed : ∀ l ∈ layout.texts, '\n' ∉ l := by
    intro l hl
    obtain ⟨row, _, rfl⟩ := List.mem_map.mp hl
    exact row.feed_notMem_text
  apply readUnder_of_read
  rw [read, String.toList_ofList, hframe]
  simp only [layout.lines_inner, List.tail_cons, layout.strayLines_later]
  rw [layout.ofLines_contents, Comment.ofDescription_unlines hfeed]

example : readUnder .strict (String.ofList ({
      rows := [{ text := ['a', ' ', '*', '/'] }, { text := ['*'], spaced := false },
        { text := ['@', 's', 'e', 'e', ' ', 'B'], ending := .returnFeed }] } : Layout).write) =
    .ok (some { text := "a */\n*", tags := [{ name := "see", value := "B" }] }) := by
  decide +kernel

end Block

end ClassDiagram
