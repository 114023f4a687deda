import ClassDiagram.Proofs.Description

/-!
# Comments written out again

What reading a description gives is in a normal form: no line of the text opens a tag, a name has
characters of names only, a parameter is one word, and a value is one line without blanks at its
ends. A comment in this form is found again when it is written out, one line for each tag, unless
a tag that takes a parameter has a value and no parameter; the first word of the value is then
taken for the parameter.
-/

namespace ClassDiagram

namespace Text

/-! ## Blanks are neither letters nor numbers -/

/-- The ranges of blanks, both ends included. -/
def blankRanges : List (Nat × Nat) :=
  [(9, 13), (0x20, 0x20), (0x85, 0x85), (0xA0, 0xA0), (0x1680, 0x1680), (0x2000, 0x200A),
   (0x2028, 0x2029), (0x202F, 0x202F), (0x205F, 0x205F), (0x3000, 0x3000)]

theorem exists_blankRange {c : Char} (h : isBlank c = true) :
    ∃ b ∈ blankRanges, b.1 ≤ c.toNat ∧ c.toNat ≤ b.2 := by
  simp only [isBlank, Bool.or_eq_true, Bool.and_eq_true, decide_eq_true_eq, beq_iff_eq] at h
  simp only [blankRanges, List.mem_cons, List.not_mem_nil, or_false, exists_eq_or_imp,
    exists_eq_left]
  omega

theorem isAlphanumeric_of_isBlank {c : Char} (h : isBlank c = true) : isAlphanumeric c = false := by
  have hnarrow : ∀ n < 0x21, (Char.ofNat n).isAlphanum = false := by decide
  have hbounds : ∀ b ∈ blankRanges, b.2 < 0x21 ∨ 0x80 ≤ b.1 := by decide
  have hwide : (blankRanges.all fun b =>
      alphanumericRanges.all fun r => Nat.blt r.2 b.1 || Nat.blt b.2 r.1) = true := by
    decide +kernel
  simp only [List.all_eq_true, Bool.or_eq_true, Nat.blt_eq] at hwide
  obtain ⟨b, hb, hlow, hhigh⟩ := exists_blankRange h
  rw [isAlphanumeric]
  split
  · next hlt =>
      have hc := hnarrow c.toNat (by have := hbounds b hb; omega)
      rwa [Char.ofNat_toNat] at hc
  · simp only [List.any_eq_false, Bool.and_eq_true, decide_eq_true_eq, not_and]
    intro r hr _
    have := hwide b hb r hr
    omega

/-! ## Single spaces -/

/-- A text behind one space; nothing for the empty text. -/
def spaced (s : List Char) : List Char :=
  if s.isEmpty then [] else ' ' :: s

theorem spaced_of_ne_nil {s : List Char} (h : s ≠ []) : spaced s = ' ' :: s := by
  rw [spaced, if_neg (by simpa using h)]

theorem trimmed_append_spaced {s t : List Char} (hs : Trimmed s) (hne : s ≠ []) (ht : Trimmed t) :
    Trimmed (s ++ spaced t) := by
  by_cases htne : t = []
  · rw [htne]
    simpa [spaced] using hs
  · rw [spaced_of_ne_nil htne, ← List.singleton_append, ← List.append_assoc]
    exact hs.append ht hne htne [' ']

theorem feed_notMem_append_spaced {s t : List Char} (hs : '\n' ∉ s) (ht : '\n' ∉ t) :
    '\n' ∉ s ++ spaced t := by
  by_cases htne : t = []
  · rw [htne]
    simpa [spaced] using hs
  · rw [spaced_of_ne_nil htne]
    simpa using ⟨hs, ht⟩

/-- A run of characters of a class ends where a space or nothing follows. -/
theorem takeWhile_append_spaced {p : Char → Bool} (hspace : p ' ' = false) {word : List Char}
    (hword : ∀ c ∈ word, p c = true) (rest : List Char) :
    (word ++ spaced rest).takeWhile p = word ∧
      (word ++ spaced rest).dropWhile p = spaced rest := by
  rw [List.takeWhile_append_of_pos hword, List.dropWhile_append_of_pos hword]
  by_cases hrest : rest = []
  · rw [hrest]
    simp [spaced]
  · rw [spaced_of_ne_nil hrest]
    simp [hspace]

theorem dropWhile_isGap_spaced {rest : List Char} (h : Trimmed rest) :
    (spaced rest).dropWhile isGap = rest := by
  cases rest with
  | nil => rfl
  | cons c rest =>
      have hblank : isBlank c = false := h.head c rfl
      have hgap : ¬ isGap c = true := fun hg => by
        rw [isBlank_of_isGap hg] at hblank
        cases hblank
      rw [spaced_of_ne_nil (List.cons_ne_nil c rest), List.dropWhile_cons_of_pos (by decide),
        List.dropWhile_cons_of_neg hgap]

@[simp] theorem trim_spaced (s : List Char) : trim (spaced s) = trim s := by
  by_cases h : s = []
  · rw [h]
    rfl
  · rw [spaced_of_ne_nil h]
    exact trim_cons_blank rfl s

end Text

open Text

namespace Tag

/-! ## Characters of names -/

/-- No blank is a letter or a number, so a name has no blanks in it. -/
theorem isBlank_of_isNameChar {c : Char} (h : isNameChar c = true) : isBlank c = false := by
  rw [Bool.eq_false_iff]
  intro hb
  simp only [isNameChar, Bool.or_eq_true, beq_iff_eq] at h
  rcases h with (h | rfl) | rfl
  · rw [isAlphanumeric_of_isBlank hb] at h
    cases h
  · exact absurd hb (by decide)
  · exact absurd hb (by decide)

/-! ## Tags in normal form -/

/-- The form that reading gives to a tag. -/
structure Normal (tag : Tag) : Prop where
  name_ne_nil : tag.name.toList ≠ []
  isNameChar : ∀ c ∈ tag.name.toList, isNameChar c = true
  params : tag.params = [] ∨ ∃ word, tag.params = [word] ∧ takesParam tag.name = true ∧
    word.toList ≠ [] ∧ ∀ c ∈ word.toList, isBlank c = false
  trimmed_value : Trimmed tag.value.toList
  feed_notMem_value : '\n' ∉ tag.value.toList

theorem normal_ofParts {name rest : List Char} (hne : name ≠ [])
    (hname : ∀ c ∈ name, isNameChar c = true) (hrest : '\n' ∉ rest) :
    (ofParts name rest).Normal := by
  rw [ofParts]
  split
  · next hp =>
      rw [Bool.and_eq_true, Bool.not_eq_true', List.isEmpty_eq_false_iff] at hp
      refine ⟨?_, ?_, Or.inr ⟨_, rfl, hp.1, ?_, ?_⟩, ?_, ?_⟩
      · simpa using hne
      · simpa using hname
      · simpa using hp.2
      · intro c hc
        rw [String.toList_ofList] at hc
        simpa using List.mem_takeWhile_imp hc
      · simpa using trimmed_trim _
      · simpa using feed_notMem_trim fun hm => hrest ((List.dropWhile_suffix _).subset hm)
  · refine ⟨?_, ?_, Or.inl rfl, ?_, ?_⟩
    · simpa using hne
    · simpa using hname
    · simpa using trimmed_trim _
    · simpa using feed_notMem_trim hrest

theorem normal_of_ofLine? {line : List Char} {tag : Tag} (hline : '\n' ∉ line)
    (h : ofLine? line = some tag) : tag.Normal := by
  obtain ⟨rest, rfl, hne, rfl⟩ := (ofLine?_eq_some_iff line tag).mp h
  apply normal_ofParts hne
  · intro c hc
    exact List.mem_takeWhile_imp hc
  · intro hm
    apply hline
    apply List.mem_cons_of_mem
    exact (List.dropWhile_suffix _).subset ((List.dropWhile_suffix _).subset hm)

theorem Normal.extend {tag : Tag} (h : tag.Normal) {more : String} (ht : Trimmed more.toList)
    (hf : '\n' ∉ more.toList) : (tag.extend more).Normal := by
  rw [Tag.extend]
  split
  · exact h
  · next hmore =>
      split
      · exact ⟨h.name_ne_nil, h.isNameChar, h.params, ht, hf⟩
      · next hvalue =>
          have hglued : (tag.value ++ " " ++ more).toList =
              tag.value.toList ++ spaced more.toList := by
            rw [spaced_of_ne_nil (by simpa using hmore)]
            simp
          refine ⟨h.name_ne_nil, h.isNameChar, h.params, ?_, ?_⟩
          · rw [hglued]
            exact trimmed_append_spaced h.trimmed_value (by simpa using hvalue) ht
          · rw [hglued]
            exact feed_notMem_append_spaced h.feed_notMem_value hf

theorem Normal.extendLines {tag : Tag} (h : tag.Normal) {more : List (List Char)}
    (hm : ∀ l ∈ more, Trimmed l ∧ '\n' ∉ l) : (tag.extendLines more).Normal := by
  induction more generalizing tag with
  | nil => exact h
  | cons line rest ih =>
      obtain ⟨ht, hf⟩ := hm line (List.mem_cons_self ..)
      apply ih (h.extend (by simpa using ht) (by simpa using hf))
      intro l hl
      exact hm l (List.mem_cons_of_mem _ hl)

/-! ## The line of a tag -/

/-- A tag on one line: its name, its parameters and its value if it has one, with single spaces
between them. -/
def line (tag : Tag) : List Char :=
  '@' :: tag.name.toList ++ tag.params.flatMap (fun word => ' ' :: word.toList) ++
    spaced tag.value.toList

/-- A tag with a value has its parameter too, if it takes one. -/
def Explicit (tag : Tag) : Prop :=
  tag.name ∈ ["param", "throws", "exception"] → tag.value ≠ "" → tag.params ≠ []

theorem takesParam_iff (name : String) :
    takesParam name = true ↔ name ∈ ["param", "throws", "exception"] :=
  List.contains_iff_mem

theorem ofLine?_spaced {name rest : List Char} (hne : name ≠ [])
    (hname : ∀ c ∈ name, isNameChar c = true) (hrest : Trimmed rest) :
    ofLine? ('@' :: name ++ spaced rest) = some (ofParts name rest) := by
  obtain ⟨htake, hdrop⟩ := takeWhile_append_spaced (by decide) hname rest
  refine (ofLine?_eq_some_iff _ _).mpr ⟨name ++ spaced rest, rfl, by rwa [htake], ?_⟩
  rw [htake, hdrop, dropWhile_isGap_spaced hrest]

/-- Behind the name of a tag without parameters stands its value, and the first word of it is read
as a parameter where one is taken. -/
theorem Normal.ofParts_value {tag : Tag} (h : tag.Normal) (hp : tag.params = []) :
    ofParts tag.name.toList tag.value.toList = tag ↔ tag.Explicit := by
  have hword : tag.value.toList.takeWhile (!isBlank ·) = [] ↔ tag.value = "" := by
    rw [← String.toList_eq_nil_iff]
    cases hv : tag.value.toList with
    | nil => simp
    | cons c rest =>
        have hc : isBlank c = false := h.trimmed_value.head c (by rw [hv]; rfl)
        simp [hc]
  by_cases hparam : takesParam tag.name = true ∧ tag.value ≠ ""
  · -- The first word of the value becomes a parameter that the tag did not have.
    have hread : (ofParts tag.name.toList tag.value.toList).params ≠ [] := by
      rw [ofParts, if_pos]
      · simp
      · simpa [hword] using hparam
    constructor
    · intro he
      rw [he, hp] at hread
      exact absurd rfl hread
    · intro he
      exact absurd hp (he ((takesParam_iff _).mp hparam.1) hparam.2)
  · have hread : ofParts tag.name.toList tag.value.toList = tag := by
      rw [ofParts, if_neg]
      · rw [trim_of_trimmed h.trimmed_value, String.ofList_toList, String.ofList_toList, ← hp]
      · simpa [hword] using hparam
    constructor
    · intro _ hn hv
      exact absurd ⟨(takesParam_iff _).mpr hn, hv⟩ hparam
    · intro _
      exact hread

/-- Behind the name of a tag with a parameter stand both. -/
theorem Normal.ofParts_param {tag : Tag} (h : tag.Normal) {word : String}
    (hp : tag.params = [word]) (ht : takesParam tag.name = true) (hne : word.toList ≠ [])
    (hword : ∀ c ∈ word.toList, isBlank c = false) :
    ofParts tag.name.toList (word.toList ++ spaced tag.value.toList) = tag := by
  obtain ⟨htake, hdrop⟩ := takeWhile_append_spaced (p := (!isBlank ·)) (by decide)
    (fun c hc => by simpa using hword c hc) tag.value.toList
  rw [ofParts, htake, hdrop, if_pos]
  · rw [trim_spaced, trim_of_trimmed h.trimmed_value, String.ofList_toList, String.ofList_toList,
      String.ofList_toList, ← hp]
  · simpa [ht] using hne

theorem Normal.exists_line_eq {tag : Tag} (h : tag.Normal) :
    ∃ rest, tag.line = '@' :: tag.name.toList ++ spaced rest ∧ Trimmed rest ∧ '\n' ∉ rest ∧
      (ofParts tag.name.toList rest = tag ↔ tag.Explicit) := by
  rcases h.params with hp | ⟨word, hp, ht, hne, hword⟩
  · refine ⟨tag.value.toList, ?_, h.trimmed_value, h.feed_notMem_value, h.ofParts_value hp⟩
    simp [line, hp]
  · refine ⟨word.toList ++ spaced tag.value.toList, ?_, ?_, ?_, ?_⟩
    · rw [spaced_of_ne_nil (by simp [hne]), line, hp]
      simp
    · exact trimmed_append_spaced (trimmed_of_forall hword) hne h.trimmed_value
    · exact feed_notMem_append_spaced (feed_notMem_of_forall hword) h.feed_notMem_value
    · simp only [h.ofParts_param hp ht hne hword, Explicit, hp, true_iff]
      intro _ _
      exact List.cons_ne_nil _ _

theorem Normal.isSome_ofLine?_line {tag : Tag} (h : tag.Normal) :
    (ofLine? tag.line).isSome = true := by
  obtain ⟨rest, hline, hrest, _, _⟩ := h.exists_line_eq
  rw [hline, ofLine?_spaced h.name_ne_nil h.isNameChar hrest]
  rfl

/-- The line of a tag opens just this tag, unless its value is taken for a parameter. -/
theorem Normal.ofLine?_line_iff {tag : Tag} (h : tag.Normal) :
    ofLine? tag.line = some tag ↔ tag.Explicit := by
  obtain ⟨rest, hline, hrest, _, hread⟩ := h.exists_line_eq
  rw [hline, ofLine?_spaced h.name_ne_nil h.isNameChar hrest, Option.some.injEq, hread]

theorem Normal.isBlank_of_mem_name {tag : Tag} (h : tag.Normal) :
    ∀ c ∈ '@' :: tag.name.toList, isBlank c = false := by
  intro c hc
  rcases List.mem_cons.mp hc with rfl | hc
  · decide
  · exact isBlank_of_isNameChar (h.isNameChar c hc)

theorem Normal.trimmed_line {tag : Tag} (h : tag.Normal) : Trimmed tag.line := by
  obtain ⟨rest, hline, hrest, _, _⟩ := h.exists_line_eq
  rw [hline]
  exact trimmed_append_spaced (trimmed_of_forall h.isBlank_of_mem_name) (List.cons_ne_nil _ _) hrest

theorem Normal.feed_notMem_line {tag : Tag} (h : tag.Normal) : '\n' ∉ tag.line := by
  obtain ⟨rest, hline, _, hfeed, _⟩ := h.exists_line_eq
  rw [hline]
  exact feed_notMem_append_spaced (feed_notMem_of_forall h.isBlank_of_mem_name) hfeed

end Tag

namespace Comment

/-! ## Comments in normal form -/

/-- The form that reading gives to a comment. -/
structure Normal (c : Comment) : Prop where
  trimmed_text : Trimmed c.text.toList
  plain : ∀ l ∈ pieces (· == '\n') c.text.toList, Trimmed l ∧ Tag.ofLine? l = none
  tags : ∀ tag ∈ c.tags, tag.Normal

theorem plain_of_mem_sections {ls : List (List Char)} {l : List Char} (h : l ∈ (sections ls).1) :
    l ∈ ls ∧ Tag.ofLine? l = none := by
  induction ls with
  | nil => cases h
  | cons line rest ih =>
      cases ht : Tag.ofLine? line with
      | none =>
          rw [sections_cons_plain ht] at h
          rcases List.mem_cons.mp h with rfl | h
          · exact ⟨List.mem_cons_self .., ht⟩
          · exact ⟨List.mem_cons_of_mem _ (ih h).1, (ih h).2⟩
      | some tag =>
          rw [sections_cons_tag ht] at h
          cases h

theorem normal_of_mem_sections {ls : List (List Char)} (hls : ∀ l ∈ ls, Trimmed l ∧ '\n' ∉ l)
    {tag : Tag} (h : tag ∈ (sections ls).2) : tag.Normal := by
  induction ls with
  | nil => cases h
  | cons line rest ih =>
      have hrest : ∀ l ∈ rest, Trimmed l ∧ '\n' ∉ l := fun l hl =>
        hls l (List.mem_cons_of_mem _ hl)
      cases ht : Tag.ofLine? line with
      | none =>
          rw [sections_cons_plain ht] at h
          exact ih hrest h
      | some first =>
          rw [sections_cons_tag ht] at h
          rcases List.mem_cons.mp h with rfl | h
          · apply (Tag.normal_of_ofLine? (hls line (List.mem_cons_self ..)).2 ht).extendLines
            intro l hl
            exact hrest l (plain_of_mem_sections hl).1
          · exact ih hrest h

theorem mem_pieces_trim_unlines {ls : List (List Char)} (h : ∀ l ∈ ls, Trimmed l ∧ '\n' ∉ l)
    {l : List Char} (hl : l ∈ pieces (· == '\n') (trim (unlines ls))) : l = [] ∨ l ∈ ls := by
  rw [trim_unlines fun l hl => (h l hl).1] at hl
  have hkept : ∀ l ∈ (ls.dropWhile List.isEmpty).rdropWhile List.isEmpty, l ∈ ls := fun l hl =>
    (List.dropWhile_suffix _).subset ((List.rdropWhile_prefix _ _).subset hl)
  by_cases hne : (ls.dropWhile List.isEmpty).rdropWhile List.isEmpty = []
  · rw [hne] at hl
    exact Or.inl (List.mem_singleton.mp hl)
  · rw [pieces_unlines hne fun l hl => (h l (hkept l hl)).2] at hl
    exact Or.inr (hkept l hl)

/-- What lines are read as is in normal form. -/
theorem normal_ofLines {ls : List (List Char)} (h : ∀ l ∈ ls, '\n' ∉ l) : (ofLines ls).Normal := by
  have htrimmed : ∀ l ∈ ls.map trim, Trimmed l ∧ '\n' ∉ l := by
    intro l hl
    obtain ⟨raw, hraw, rfl⟩ := List.mem_map.mp hl
    exact ⟨trimmed_trim raw, feed_notMem_trim (h raw hraw)⟩
  rw [ofLines_eq]
  constructor
  · simpa using trimmed_trim _
  · intro l hl
    rw [String.toList_ofList] at hl
    have hplain : ∀ l ∈ (sections (ls.map trim)).1, Trimmed l ∧ '\n' ∉ l := fun l hl =>
      htrimmed l (plain_of_mem_sections hl).1
    rcases mem_pieces_trim_unlines hplain hl with rfl | hl
    · exact ⟨trimmed_nil, rfl⟩
    · exact ⟨(hplain l hl).1, (plain_of_mem_sections hl).2⟩
  · intro tag ht
    exact normal_of_mem_sections htrimmed ht

theorem normal_ofDescription (text : String) : (ofDescription text).Normal := by
  rw [ofDescription_eq]
  exact normal_ofLines fun l hl => feed_notMem_of_mem_pieces hl

/-! ## Writing comments out -/

/-- A comment as a description: its text, if there is some, and a line for each tag. -/
def render (c : Comment) : String :=
  String.ofList (unlines
    ((if c.text = "" then [] else [c.text.toList]) ++ c.tags.map Tag.line))

theorem sections_plain_append {ls : List (List Char)} (h : ∀ l ∈ ls, Tag.ofLine? l = none)
    (rest : List (List Char)) :
    sections (ls ++ rest) = (ls ++ (sections rest).1, (sections rest).2) := by
  induction ls with
  | nil => rfl
  | cons l ls ih =>
      rw [List.cons_append, sections_cons_plain (h l (List.mem_cons_self ..)),
        ih fun l hl => h l (List.mem_cons_of_mem _ hl)]
      rfl

theorem sections_opening {ls : List (List Char)} (h : ∀ l ∈ ls, (Tag.ofLine? l).isSome = true) :
    sections ls = ([], ls.filterMap Tag.ofLine?) := by
  induction ls with
  | nil => rfl
  | cons l rest ih =>
      obtain ⟨tag, ht⟩ := Option.isSome_iff_exists.mp (h l (List.mem_cons_self ..))
      rw [sections_cons_tag ht, ih fun l hl => h l (List.mem_cons_of_mem _ hl),
        List.filterMap_cons_some ht]
      rfl

theorem map_trim_of_trimmed {ls : List (List Char)} (h : ∀ l ∈ ls, Trimmed l) :
    ls.map trim = ls := by
  calc
    ls.map trim = ls.map id := List.map_congr_left fun l hl => trim_of_trimmed (h l hl)
    _ = ls := List.map_id ls

/-- Lines that open no tag and lines that each open one are read as a text and its tags. -/
theorem ofLines_plain_append {ls ms : List (List Char)}
    (hls : ∀ l ∈ ls, Trimmed l ∧ Tag.ofLine? l = none)
    (hms : ∀ l ∈ ms, Trimmed l ∧ (Tag.ofLine? l).isSome = true) :
    ofLines (ls ++ ms) =
      { text := String.ofList (trim (unlines ls)), tags := ms.filterMap Tag.ofLine? } := by
  have hall : ∀ l ∈ ls ++ ms, Trimmed l := by
    intro l hl
    rcases List.mem_append.mp hl with hl | hl
    · exact (hls l hl).1
    · exact (hms l hl).1
  rw [ofLines_eq, map_trim_of_trimmed hall, sections_plain_append fun l hl => (hls l hl).2,
    sections_opening fun l hl => (hms l hl).2, List.append_nil]

theorem unlines_unlines_cons {ls : List (List Char)} (h : ls ≠ []) (ms : List (List Char)) :
    unlines (unlines ls :: ms) = unlines (ls ++ ms) := by
  by_cases hms : ms = []
  · rw [hms, List.append_nil, unlines_singleton]
  · rw [unlines_cons _ hms, unlines_append h hms]

/-- A comment in normal form is written out as the lines of its text and of its tags. -/
theorem Normal.ofDescription_render_eq {c : Comment} (h : c.Normal) :
    ofDescription c.render =
      ofLines (pieces (· == '\n') c.text.toList ++ c.tags.map Tag.line) := by
  have htags : ∀ l ∈ c.tags.map Tag.line, '\n' ∉ l := by
    intro l hl
    obtain ⟨tag, ht, rfl⟩ := List.mem_map.mp hl
    exact (h.tags tag ht).feed_notMem_line
  by_cases htext : c.text = ""
  · have hpieces : pieces (· == '\n') c.text.toList = [[]] := by
      rw [htext]
      rfl
    rw [render, if_pos htext, hpieces, List.nil_append, ofDescription_unlines htags]
    exact (ofLines_nil_cons _).symm
  · have hlines : unlines ([c.text.toList] ++ c.tags.map Tag.line) =
        unlines (pieces (· == '\n') c.text.toList ++ c.tags.map Tag.line) := by
      rw [← unlines_unlines_cons (pieces_ne_nil _ _), unlines_pieces]
      rfl
    rw [render, if_neg htext, hlines, ofDescription_unlines]
    intro l hl
    rcases List.mem_append.mp hl with hl | hl
    · exact feed_notMem_of_mem_pieces hl
    · exact htags l hl

theorem filterMap_eq_self_iff {α : Type} {f : α → Option α} {l : List α}
    (h : ∀ a ∈ l, (f a).isSome = true) : l.filterMap f = l ↔ ∀ a ∈ l, f a = some a := by
  have hmap : (l.filterMap f).map some = l.map f := by
    induction l with
    | nil => rfl
    | cons a rest ih =>
        obtain ⟨b, hb⟩ := Option.isSome_iff_exists.mp (h a (List.mem_cons_self ..))
        rw [List.filterMap_cons_some hb, List.map_cons, List.map_cons, hb,
          ih fun a ha => h a (List.mem_cons_of_mem _ ha)]
  rw [← List.map_inj_left, ← hmap, List.map_inj_right fun _ _ => Option.some.inj]

/-- A comment in normal form is read back just when each of its tags is. -/
theorem Normal.ofDescription_render_iff {c : Comment} (h : c.Normal) :
    ofDescription c.render = c ↔ ∀ tag ∈ c.tags, tag.Explicit := by
  have hsome : ∀ tag ∈ c.tags, ((Tag.ofLine? ∘ Tag.line) tag).isSome = true := fun tag ht =>
    (h.tags tag ht).isSome_ofLine?_line
  have htags : ∀ l ∈ c.tags.map Tag.line, Trimmed l ∧ (Tag.ofLine? l).isSome = true := by
    intro l hl
    obtain ⟨tag, ht, rfl⟩ := List.mem_map.mp hl
    exact ⟨(h.tags tag ht).trimmed_line, hsome tag ht⟩
  have hread : ofDescription c.render =
      { text := c.text, tags := c.tags.filterMap (Tag.ofLine? ∘ Tag.line) } := by
    rw [h.ofDescription_render_eq, ofLines_plain_append h.plain htags, unlines_pieces,
      trim_of_trimmed h.trimmed_text, String.ofList_toList, List.filterMap_map]
  calc
    ofDescription c.render = c ↔ c.tags.filterMap (Tag.ofLine? ∘ Tag.line) = c.tags := by
      rw [hread]
      cases c
      simp
    _ ↔ ∀ tag ∈ c.tags, Tag.ofLine? tag.line = some tag := filterMap_eq_self_iff hsome
    _ ↔ ∀ tag ∈ c.tags, tag.Explicit :=
      forall₂_congr fun tag ht => (h.tags tag ht).ofLine?_line_iff

theorem Normal.ofDescription_text {c : Comment} (h : c.Normal) :
    ofDescription c.text = { text := c.text } := by
  have hread := ofLines_plain_append h.plain (List.forall_mem_nil _)
  rw [List.append_nil, unlines_pieces, trim_of_trimmed h.trimmed_text,
    String.ofList_toList] at hread
  rw [ofDescription_eq, hread]
  rfl

/-- What was read from a description and is written out is read as the same comment, just when
every tag that takes a parameter and has a value has its parameter; and its text alone is read as
that text without tags. -/
theorem ofDescription_render_ofDescription (text : String) :
    (ofDescription (ofDescription text).render = ofDescription text ↔
        ∀ tag ∈ (ofDescription text).tags, tag.Explicit) ∧
      ofDescription (ofDescription text).text = { text := (ofDescription text).text } :=
  ⟨(normal_ofDescription text).ofDescription_render_iff,
    (normal_ofDescription text).ofDescription_text⟩

/-- The value stood on the line below the tag, so `size` was not taken for the parameter at
first. -/
example : ofDescription (ofDescription "@param\nsize of the box").render =
    { tags := [{ name := "param", params := ["size"], value := "of the box" }] } := by
  decide +kernel

end Comment

end ClassDiagram
