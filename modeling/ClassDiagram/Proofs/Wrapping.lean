import ClassDiagram.Diagram.Inference
import ClassDiagram.Proofs.Rendering
import ClassDiagram.Proofs.Tokens

/-!
# Annotations over several lines

An annotation may go on over any number of lines, and its words may stand as far apart as one
likes. Reading a description trims each line and puts single spaces between the lines of a value,
and neither changes the words. So however an annotation is laid out, the tag that is read has its
words for its value. What it takes for that is that none of the lines behind the first opens a tag
of its own, and a line does so even if it is indented, since it is trimmed first.
-/

namespace ClassDiagram

open Text

namespace Text

/-- Blanks behind a text that ends with another character are the only ones to be trimmed. -/
theorem trimEnd_append_of_last {s : List Char} (h : ∀ c ∈ s.getLast?, isBlank c = false)
    (t : List Char) : trimEnd (s ++ t) = s ++ trimEnd t := by
  have hs : s.reverse.dropWhile isBlank = s.reverse := by
    cases hr : s.reverse with
    | nil => rfl
    | cons c rest =>
        apply List.dropWhile_cons_of_neg
        apply Bool.eq_false_iff.mp
        apply h
        rw [Option.mem_def, ← List.head?_reverse, hr, List.head?_cons]
  rw [trimEnd, List.reverse_append, List.dropWhile_append, trimEnd]
  split
  · next ht => rw [hs, List.isEmpty_iff.mp ht, List.reverse_reverse, List.reverse_nil,
      List.append_nil]
  · rw [List.reverse_append, List.reverse_reverse]

/-- Behind a text without blanks at its ends, only the end of what follows is trimmed. -/
theorem trim_append_of_trimmed {s : List Char} (h : Trimmed s) (hne : s ≠ []) (t : List Char) :
    trim (s ++ t) = s ++ trimEnd t := by
  obtain ⟨c, rest, rfl⟩ := List.exists_cons_of_ne_nil hne
  have hc : ¬ isBlank c = true := Bool.eq_false_iff.mp (h.head c rfl)
  have hstart : trimStart (c :: rest ++ t) = c :: rest ++ t := List.dropWhile_cons_of_neg hc
  rw [trim, hstart, trimEnd_append_of_last h.last]

/-- A text is a first line and later ones, with a line feed behind each but the last. -/
theorem exists_unlines_eq (s : List Char) :
    ∃ first later, s = unlines (first :: later) ∧ ∀ l ∈ first :: later, '\n' ∉ l := by
  obtain ⟨first, later, hpieces⟩ := List.exists_cons_of_ne_nil (pieces_ne_nil (· == '\n') s)
  refine ⟨first, later, by rw [← hpieces, unlines_pieces], ?_⟩
  rw [← hpieces]
  exact fun l hl => feed_notMem_of_mem_pieces hl

theorem tail_closeLines (first : List Char) (later : List (List Char)) :
    (closeLines (first :: later)).tail = closeLines later := by
  cases later with
  | nil => cases first <;> rfl
  | cons l later => rfl

/-- What is written in front of a text stands in front of its first line. -/
theorem append_unlines_cons (front first : List Char) (later : List (List Char)) :
    front ++ unlines (first :: later) = unlines ((front ++ first) :: later) := by
  by_cases hne : later = []
  · rw [hne, unlines_singleton, unlines_singleton]
  · rw [unlines_cons _ hne, unlines_cons _ hne, List.append_assoc]

/-- What is written in front of a text goes in front of its first line, and makes one if there was
none. The later lines stay. -/
theorem exists_lines_append {front : List Char} (hne : front ≠ []) (hfeed : '\n' ∉ front)
    (hlast : front.getLast? ≠ some '\r') (s : List Char) :
    ∃ back, lines (front ++ s) = (front ++ back) :: (lines s).tail := by
  obtain ⟨first, later, hs, hfeeds⟩ := exists_unlines_eq s
  have hall : ∀ l ∈ (front ++ first) :: later, '\n' ∉ l := by
    rw [List.forall_mem_cons] at hfeeds ⊢
    exact ⟨by rw [List.mem_append, not_or]; exact ⟨hfeed, hfeeds.1⟩, hfeeds.2⟩
  rw [hs, append_unlines_cons, lines, lines, pieces_unlines (List.cons_ne_nil _ _) hall,
    pieces_unlines (List.cons_ne_nil _ _) hfeeds, tail_closeLines]
  cases later with
  | nil => exact ⟨first, by simp [closeLines, hne]⟩
  | cons l later =>
      refine ⟨dropReturn first, ?_⟩
      rw [closeLines_cons _ (List.cons_ne_nil l later)]
      congr 1
      by_cases hfirst : first = []
      · rw [hfirst, List.append_nil, dropReturn, if_neg hlast]
        simp [dropReturn]
      · rw [dropReturn, dropReturn, List.getLast?_append_of_ne_nil _ hfirst]
        split
        · rw [List.dropLast_append_of_ne_nil hfirst]
        · rfl

/-- A later line of a text is a line, but for blanks at its end, unless it is blank itself. -/
theorem trim_eq_nil_or_mem_lines {s first : List Char} {later : List (List Char)}
    (h : s = unlines (first :: later)) (hfeed : ∀ l ∈ first :: later, '\n' ∉ l) {l : List Char}
    (hl : l ∈ later) : trim l = [] ∨ ∃ l' ∈ (lines s).tail, trim l' = trim l := by
  rw [lines, h, pieces_unlines (List.cons_ne_nil _ _) hfeed, tail_closeLines]
  have hmem : trim l ∈ later.map trim := List.mem_map_of_mem hl
  rcases map_trim_closeLines later with heq | heq
  · rw [heq] at hmem
    exact Or.inr (List.mem_map.mp hmem)
  · rw [heq, List.mem_append, List.mem_singleton] at hmem
    exact hmem.symm.imp_right List.mem_map.mp

end Text

namespace Tag

/-- A line that opens a tag begins with an at sign and a character of names. -/
def opens : List Char → Bool
  | '@' :: c :: _ => isNameChar c
  | _ => false

theorem ofLine?_eq_none_iff (line : List Char) : ofLine? line = none ↔ opens line = false := by
  unfold ofLine? opens
  split
  · next rest =>
      cases rest with
      | nil => simp
      | cons c rest => by_cases hc : isNameChar c = true <;> simp [hc]
  · next h =>
      refine iff_of_true rfl ?_
      split
      · next c rest => exact absurd rfl (h (c :: rest))
      · rfl

/-- A name ends where no character of names follows. What is left of the line is the value, unless
the tag takes a parameter. -/
theorem ofLine?_value {name behind : List Char} (hne : name ≠ [])
    (hname : ∀ c ∈ name, isNameChar c = true) (hp : takesParam (String.ofList name) = false)
    (hbehind : ∀ c ∈ behind.head?, isNameChar c = false) :
    ofLine? ('@' :: name ++ behind) = some
      { name := String.ofList name
        value := String.ofList (trim (behind.dropWhile isGap)) } := by
  have hend : behind.takeWhile isNameChar = [] ∧ behind.dropWhile isNameChar = behind := by
    cases behind with
    | nil => exact ⟨rfl, rfl⟩
    | cons c rest =>
        have hc : ¬ isNameChar c = true := Bool.eq_false_iff.mp (hbehind c rfl)
        exact ⟨List.takeWhile_cons_of_neg hc, List.dropWhile_cons_of_neg hc⟩
  have htake : (name ++ behind).takeWhile isNameChar = name := by
    rw [List.takeWhile_append_of_pos hname, hend.1, List.append_nil]
  refine (ofLine?_eq_some_iff _ _).mpr ⟨name ++ behind, rfl, by rwa [htake], ?_⟩
  rw [htake, List.dropWhile_append_of_pos hname, hend.2, ofParts, hp]
  rfl

/-! ## Words of a value -/

theorem words_extend (tag : Tag) (more : String) :
    words (tag.extend more).value = words tag.value ++ words more := by
  rw [extend]
  split
  · next hmore => rw [hmore, ← String.ofList_nil, words_ofList, tokens_nil, List.map_nil,
      List.append_nil]
  · split
    · next hvalue => rw [hvalue, ← String.ofList_nil, words_ofList, tokens_nil, List.map_nil,
        List.nil_append]
    · have hglued : (tag.value ++ " " ++ more).toList = tag.value.toList ++ ' ' :: more.toList := by
        simp
      rw [words, hglued, tokens_append_sep isBlank _ _ (by decide), List.map_append]
      rfl

/-- Lines that extend a tag add their words to its value, and change nothing else of it. -/
theorem exists_extendLines_eq (tag : Tag) (more : List (List Char)) :
    ∃ value, tag.extendLines more = { tag with value := value } ∧
      words value = words tag.value ++ more.flatMap fun line => words (String.ofList line) := by
  induction more generalizing tag with
  | nil => exact ⟨tag.value, rfl, by simp⟩
  | cons line rest ih =>
      obtain ⟨value, heq, hwords⟩ := ih (tag.extend (String.ofList line))
      refine ⟨value, ?_, ?_⟩
      · have hsame : ∃ extended,
            tag.extend (String.ofList line) = { tag with value := extended } := by
          unfold extend
          split
          · exact ⟨tag.value, rfl⟩
          · split <;> exact ⟨_, rfl⟩
        obtain ⟨extended, hextended⟩ := hsame
        change (tag.extend (String.ofList line)).extendLines rest = _
        rw [heq, hextended]
      · rw [hwords, words_extend, List.append_assoc, List.flatMap_cons]

end Tag

namespace Comment

/-! ## One tag over several lines -/

/-- There are as many tags as lines that open one; blanks in front of a line do not count. -/
theorem length_tags_ofDescription (text : String) :
    (ofDescription text).tags.length =
      (lines text.toList).countP fun line => Tag.opens (trim line) := by
  rw [ofDescription, ofLines_eq]
  induction lines text.toList with
  | nil => rfl
  | cons line rest ih =>
      rw [List.map_cons, List.countP_cons]
      cases h : Tag.ofLine? (trim line) with
      | none => rw [sections_cons_plain h, ih, (Tag.ofLine?_eq_none_iff _).mp h]; rfl
      | some tag =>
          have hopens : Tag.opens (trim line) = true := by
            by_contra hn
            rw [(Tag.ofLine?_eq_none_iff _).mpr (Bool.eq_false_iff.mpr hn)] at h
            cases h
          rw [sections_cons_tag h, List.length_cons, ih, hopens, if_pos rfl]

/-- Blanks in front of a description say nothing. -/
theorem ofDescription_blank_append {front : List Char} (h : ∀ c ∈ front, isBlank c = true)
    (s : List Char) :
    ofDescription (String.ofList (front ++ s)) = ofDescription (String.ofList s) := by
  induction front with
  | nil => rfl
  | cons c front ih =>
      rw [← ih fun d hd => h d (List.mem_cons_of_mem _ hd), List.cons_append]
      simp only [ofDescription_eq, String.toList_ofList]
      obtain ⟨line, rest, hpieces⟩ :=
        List.exists_cons_of_ne_nil (pieces_ne_nil (· == '\n') (front ++ s))
      by_cases hfeed : c = '\n'
      · rw [hfeed, pieces, if_pos (by rfl), ofLines_nil_cons]
      · rw [pieces, if_neg (by simpa using hfeed), hpieces]
        apply ofLines_congr
        rw [List.modifyHead_cons, List.map_cons, List.map_cons,
          trim_cons_blank (h c List.mem_cons_self)]

/-- A line that opens a tag, and lines behind it that open none, make up one tag and nothing
else. -/
theorem ofLines_tag {line : List Char} {tag : Tag} (h : Tag.ofLine? (trim line) = some tag)
    {later : List (List Char)} (hlater : ∀ l ∈ later, Tag.ofLine? (trim l) = none) :
    ofLines (line :: later) = { tags := [tag.extendLines (later.map trim)] } := by
  have hplain : sections (later.map trim) = (later.map trim, []) := by
    have hall : ∀ l ∈ later.map trim, Tag.ofLine? l = none := by
      rw [List.forall_mem_map]
      exact hlater
    simpa [sections] using sections_plain_append hall []
  rw [ofLines_eq, List.map_cons, sections_cons_tag h, hplain]
  rfl

end Comment

namespace Annotation

/-! ## Layouts -/

/-- A word of an annotation and the blanks in front of it. -/
structure SpacedWord where
  gap : List Char
  word : List Char
  gap_ne_nil : gap ≠ [] := by decide
  isBlank_gap : gap.all isBlank = true := by decide
  word_ne_nil : word ≠ [] := by decide
  solid_word : word.all (!isBlank ·) = true := by decide

/-- An annotation as it is written behind its tag: its words with any blanks between them, be they
spaces, tabs or line breaks, and the blanks around the whole. -/
structure Layout where
  before : List Char := []
  items : List SpacedWord
  after : List Char := []
  isBlank_before : before.all isBlank = true := by decide
  isBlank_after : after.all isBlank = true := by decide

namespace Layout

/-- The words alone. -/
def tokens (layout : Layout) : List String :=
  layout.items.map fun item => String.ofList item.word

/-- What stands behind the name of the tag. -/
def behind (layout : Layout) : List Char :=
  layout.items.flatMap (fun item => item.gap ++ item.word) ++ layout.after

/-- The whole description. -/
def write (layout : Layout) : List Char :=
  layout.before ++ ('@' :: "assoc".toList ++ layout.behind)

/-- The lines behind the one with the name of the tag. -/
def laterLines (layout : Layout) : List (List Char) :=
  (lines layout.behind).tail

theorem tokens_behind (layout : Layout) :
    Text.tokens isBlank layout.behind = layout.items.map (·.word) := by
  rw [behind, tokens_append_of_sep _ (List.all_eq_true.mp layout.isBlank_after)]
  apply tokens_flatMap_spaced
  · intro item _
    exact ⟨item.gap_ne_nil, List.all_eq_true.mp item.isBlank_gap⟩
  · intro item _
    refine ⟨item.word_ne_nil, fun c hc => ?_⟩
    simpa using List.all_eq_true.mp item.solid_word c hc

/-- The name of the tag ends at a blank. -/
theorem isBlank_head_behind (layout : Layout) : ∀ c ∈ layout.behind.head?, isBlank c = true := by
  intro c hc
  cases hitems : layout.items with
  | nil =>
      rw [behind, hitems, List.flatMap_nil, List.nil_append] at hc
      exact List.all_eq_true.mp layout.isBlank_after c (List.mem_of_mem_head? hc)
  | cons item rest =>
      obtain ⟨d, gap, hgap⟩ := List.exists_cons_of_ne_nil item.gap_ne_nil
      have hd : isBlank d = true :=
        List.all_eq_true.mp item.isBlank_gap d (hgap ▸ List.mem_cons_self)
      rw [behind, hitems, List.flatMap_cons, hgap] at hc
      rwa [← Option.some.inj hc]

theorem words_tokens (layout : Layout) : words (" ".intercalate layout.tokens) = layout.tokens := by
  apply words_intercalate
  intro w hw
  obtain ⟨item, _, rfl⟩ := List.mem_map.mp hw
  rw [String.toList_ofList]
  refine ⟨item.word_ne_nil, fun c hc => ?_⟩
  simpa using List.all_eq_true.mp item.solid_word c hc

end Layout

/-! ## Reading a layout -/

theorem isNameChar_of_mem_assocTag : ∀ c ∈ Diagram.assocTag.toList, Tag.isNameChar c = true :=
  List.all_eq_true.mp (by decide)

theorem trimmed_assocTag : Trimmed ('@' :: Diagram.assocTag.toList) :=
  trimmed_of_forall <| List.forall_mem_cons.mpr
    ⟨rfl, fun c hc => Tag.isBlank_of_isNameChar (isNameChar_of_mem_assocTag c hc)⟩

/-- The line with the name of the tag opens it, and the tag has the other words of the line. -/
theorem exists_ofLine?_eq {rest : List Char} (h : ∀ c ∈ rest.head?, isBlank c = true) :
    ∃ value, Tag.ofLine? (trim ('@' :: Diagram.assocTag.toList ++ rest)) =
        some { name := Diagram.assocTag, value := value } ∧
      words value = (Text.tokens isBlank rest).map String.ofList := by
  have htrim : trim ('@' :: Diagram.assocTag.toList ++ rest) =
      '@' :: Diagram.assocTag.toList ++ trimEnd rest :=
    trim_append_of_trimmed trimmed_assocTag (List.cons_ne_nil _ _) rest
  have hhead : ∀ c ∈ (trimEnd rest).head?, Tag.isNameChar c = false := by
    intro c hc
    obtain ⟨back, hback⟩ : trimEnd rest <+: rest := List.rdropWhile_prefix _ _
    have hrest : rest.head? = some c := by rw [← hback, List.head?_append, hc, Option.some_or]
    by_contra hn
    have := Tag.isBlank_of_isNameChar (Bool.not_eq_false _ ▸ hn)
    rw [h c hrest] at this
    cases this
  refine ⟨String.ofList (trim ((trimEnd rest).dropWhile isGap)), ?_, ?_⟩
  · rw [htrim, Tag.ofLine?_value (by decide) isNameChar_of_mem_assocTag (by decide) hhead,
      String.ofList_toList]
  · rw [words_ofList, tokens_trim, tokens_dropWhile fun _ => isBlank_of_isGap, tokens_trimEnd]

/-- A description that begins with the name of the tag is one tag with the words that follow, if
no later line opens another one. -/
theorem exists_ofDescription_eq {rest : List Char} (hblank : ∀ c ∈ rest.head?, isBlank c = true)
    (hlater : ∀ line ∈ (lines rest).tail, Tag.opens (trim line) = false) :
    ∃ value, Comment.ofDescription (String.ofList ('@' :: Diagram.assocTag.toList ++ rest)) =
        { tags := [{ name := Diagram.assocTag, value := value }] } ∧
      words value = (Text.tokens isBlank rest).map String.ofList := by
  obtain ⟨first, later, hrest, hfeed⟩ := exists_unlines_eq rest
  have hfirst : ∀ c ∈ first.head?, isBlank c = true := by
    intro c hc
    obtain ⟨cs, rfl⟩ := List.head?_eq_some_iff.mp hc
    have hcons : unlines ((c :: cs) :: later) = c :: unlines (cs :: later) :=
      (append_unlines_cons [c] cs later).symm
    apply hblank
    rw [hrest, hcons]
    exact hc
  have hplain : ∀ l ∈ later, Tag.ofLine? (trim l) = none := by
    intro l hl
    rw [Tag.ofLine?_eq_none_iff]
    rcases trim_eq_nil_or_mem_lines hrest hfeed hl with hnil | ⟨l', hl', htrim⟩
    · rw [hnil]
      rfl
    · rw [← htrim]
      exact hlater l' hl'
  obtain ⟨start, hopen, hstart⟩ := exists_ofLine?_eq hfirst
  obtain ⟨value, hvalue, hwords⟩ := Tag.exists_extendLines_eq
    { name := Diagram.assocTag, value := start } (later.map trim)
  refine ⟨value, ?_, ?_⟩
  · rw [hrest, append_unlines_cons, Comment.ofDescription_unlines, Comment.ofLines_tag hopen hplain,
      hvalue]
    rw [List.forall_mem_cons] at hfeed ⊢
    refine ⟨?_, hfeed.2⟩
    rw [List.mem_append, not_or]
    exact ⟨by decide, hfeed.1⟩
  · -- each stage keeps the words: the line of the tag, the trimmed lines, the text as a whole
    have hmore : ((later.map trim).flatMap fun l => words (String.ofList l)) =
        (later.flatMap (Text.tokens isBlank)).map String.ofList := by
      simp only [List.flatMap_map, words_ofList, tokens_trim, List.map_flatMap]
    rw [hwords, hstart, hmore, ← List.map_append, ← List.flatMap_cons, ← tokens_unlines, ← hrest]

/-- Besides the one for the annotation there is a tag for each later line that opens one. -/
theorem length_tags_write (layout : Layout) :
    (Comment.ofDescription (String.ofList layout.write)).tags.length =
      layout.laterLines.countP (fun line => Tag.opens (trim line)) + 1 := by
  obtain ⟨back, hlines⟩ :
      ∃ back, lines ('@' :: Diagram.assocTag.toList ++ layout.behind) =
        ('@' :: Diagram.assocTag.toList ++ back) :: (lines layout.behind).tail :=
    exists_lines_append (List.cons_ne_nil _ _) (by decide) (by decide) layout.behind
  have hopens : Tag.opens (trim ('@' :: Diagram.assocTag.toList ++ back)) = true := by
    rw [trim_append_of_trimmed trimmed_assocTag (List.cons_ne_nil _ _)]
    change Tag.isNameChar 'a' = true
    decide
  rw [Layout.write, Comment.ofDescription_blank_append (List.all_eq_true.mp layout.isBlank_before),
    Comment.length_tags_ofDescription, String.toList_ofList]
  change (lines ('@' :: Diagram.assocTag.toList ++ layout.behind)).countP _ = _
  rw [hlines, List.countP_cons, if_pos hopens]
  rfl

/-- However an annotation is laid out, reading the description gives one tag and no text, and
the value of the tag has the words of the annotation. So it is read like the words with single
spaces between them, be it as an association or as the same error. This is so exactly if no later
line opens a tag, with or without blanks in front of it, since each such line leads to a tag of its
own. -/
theorem read_wrapped (layout : Layout) :
    (∃ value, Comment.ofDescription (String.ofList layout.write) =
        { text := "", tags := [{ name := "assoc", params := [], value := value }] } ∧
      words value = layout.tokens ∧
      read value = read (" ".intercalate layout.tokens)) ↔
    ∀ line ∈ layout.laterLines, Tag.opens (trim line) = false := by
  constructor
  · rintro ⟨value, hvalue, -, -⟩ line hline
    have hlength := length_tags_write layout
    rw [hvalue, List.length_singleton, Nat.right_eq_add, List.countP_eq_zero] at hlength
    exact Bool.eq_false_iff.mpr (hlength line hline)
  · intro h
    obtain ⟨value, hvalue, hwords⟩ := exists_ofDescription_eq layout.isBlank_head_behind h
    have htokens : words value = layout.tokens := by
      rw [hwords, layout.tokens_behind, List.map_map]
      rfl
    refine ⟨value, ?_, htokens, by rw [read, htokens, read, layout.words_tokens]⟩
    rw [Layout.write,
      Comment.ofDescription_blank_append (List.all_eq_true.mp layout.isBlank_before)]
    exact hvalue

/-- The name of the tag alone on its line, a blank line, and a role that looks like a tag. -/
def spread : Layout where
  before := [' ', '\n']
  items := [
    { gap := ['\t', '\n', ' ', ' '], word := ['1'] },
    { gap := [' '], word := ['o', '-', '>'] },
    { gap := ['\r', '\n', '\n', '\t'], word := ['*'] },
    { gap := [' ', ' '], word := ['@', 's', 'e', 'e'] },
    { gap := ['\n'], word := ['I', 't', 'e', 'm'] }]
  after := [' ', '\n']

theorem read_wrapped_spread :
    spread.write = " \n@assoc\t\n  1 o->\r\n\n\t*  @see\nItem \n".toList ∧
      (∀ line ∈ spread.laterLines, Tag.opens (trim line) = false) ∧
      ∃ value, Comment.ofDescription (String.ofList spread.write) =
          { text := "", tags := [{ name := "assoc", params := [], value := value }] } ∧
        words value = ["1", "o->", "*", "@see", "Item"] ∧
        read value = read "1 o-> * @see Item" := by
  have hlater : ∀ line ∈ spread.laterLines, Tag.opens (trim line) = false := by decide
  obtain ⟨value, hvalue, hwords, hread⟩ := (read_wrapped spread).mpr hlater
  exact ⟨by decide, hlater, value, hvalue, hwords, hread⟩

/-- A role that looks like a tag at the front of a line, but for a blank. -/
def indented : Layout where
  items := [
    { gap := [' '], word := ['-'] },
    { gap := ['\n', ' '], word := ['@', 's', 'e', 'e'] },
    { gap := [' '], word := ['T'] }]

/-- That no later line begins with an at sign and a character of names is not enough: the role is
read as a tag of its own. -/
theorem not_read_wrapped_indented :
    indented.write = "@assoc -\n @see T".toList ∧
      (∀ line ∈ indented.laterLines, Tag.opens line = false) ∧
      (Comment.ofDescription (String.ofList indented.write)).tags.length = 2 ∧
      ¬ ∃ value, Comment.ofDescription (String.ofList indented.write) =
        { text := "", tags := [{ name := "assoc", params := [], value := value }] } := by
  have hlength : (Comment.ofDescription (String.ofList indented.write)).tags.length = 2 := by
    rw [length_tags_write]
    decide
  refine ⟨by decide, by decide, hlength, ?_⟩
  rintro ⟨value, hvalue⟩
  rw [hvalue] at hlength
  cases hlength

end Annotation

end ClassDiagram
