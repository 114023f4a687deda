import ClassDiagram.Proofs.FirstOccurrence
import ClassDiagram.Proofs.RenderedNames

/-!
# The names in source text

A run of a text is a stretch without separators that reaches, on both sides, up to a separator or
to an end of the text. A separator cuts a text in two, and the runs of the text are those of the
two sides; a text without separators is one run, or empty. All texts are put together from such
texts by separators.

The names in source text follow the same laws: on both sides of a delimiter they are found
separately, and listed where they come first. So they are the runs of the text, in the order of the
places where these begin first.
-/

namespace ClassDiagram

namespace Text

/-! ## Runs and their places -/

section Runs

variable {α : Type} {sep : α → Bool} {front run back s t : List α} {place : Nat} {d : α}

/-- What stands between `front` and `back` is a run: it cannot be made longer on either side. -/
structure IsRun (sep : α → Bool) (front run back : List α) : Prop where
  ne_nil : run ≠ []
  solid : ∀ c ∈ run, sep c = false
  before : ∀ c ∈ front.getLast?, sep c = true
  behind : ∀ c ∈ back.head?, sep c = true

/-- A run begins at a place of a text, behind so many characters. -/
def RunAt (sep : α → Bool) (s : List α) (place : Nat) (run : List α) : Prop :=
  ∃ front back, s = front ++ run ++ back ∧ front.length = place ∧ IsRun sep front run back

theorem isRun_append_sep_cons (hd : sep d = true) (s : List α) :
    IsRun sep (s ++ d :: front) run back ↔ IsRun sep front run back := by
  have hlast : (∀ c ∈ (s ++ d :: front).getLast?, sep c = true) ↔
      ∀ c ∈ front.getLast?, sep c = true := by
    cases h : front.getLast? <;> simp [List.getLast?_append, List.getLast?_cons, h, hd]
  exact ⟨fun h => ⟨h.ne_nil, h.solid, hlast.mp h.before, h.behind⟩,
    fun h => ⟨h.ne_nil, h.solid, hlast.mpr h.before, h.behind⟩⟩

theorem isRun_append_cons_sep (hd : sep d = true) (t : List α) :
    IsRun sep front run (back ++ d :: t) ↔ IsRun sep front run back := by
  have hhead : (∀ c ∈ (back ++ d :: t).head?, sep c = true) ↔
      ∀ c ∈ back.head?, sep c = true := by
    cases back <;> simp [hd]
  exact ⟨fun h => ⟨h.ne_nil, h.solid, h.before, hhead.mp h.behind⟩,
    fun h => ⟨h.ne_nil, h.solid, h.before, hhead.mpr h.behind⟩⟩

theorem RunAt.place_lt (h : RunAt sep s place run) : place < s.length := by
  obtain ⟨front, back, rfl, rfl, hrun⟩ := h
  have hpos : 0 < run.length := List.length_pos_iff.mpr hrun.ne_nil
  simp only [List.length_append]
  omega

theorem RunAt.append_sep (h : RunAt sep s place run) (hd : sep d = true) (t : List α) :
    RunAt sep (s ++ d :: t) place run := by
  obtain ⟨front, back, rfl, hplace, hrun⟩ := h
  exact ⟨front, back ++ d :: t, List.append_assoc .., hplace, (isRun_append_cons_sep hd t).mpr hrun⟩

theorem RunAt.sep_append (h : RunAt sep t place run) (hd : sep d = true) (s : List α) :
    RunAt sep (s ++ d :: t) (s.length + 1 + place) run := by
  obtain ⟨front, back, rfl, rfl, hrun⟩ := h
  refine ⟨s ++ d :: front, back, by simp, ?_, (isRun_append_sep_cons hd s).mpr hrun⟩
  simp only [List.length_append, List.length_cons]
  omega

/-- Wherever a text is cut in two, a character of it is on the one side or on the other. -/
theorem append_cons_eq_append_iff {xs ys : List α} :
    s ++ d :: t = xs ++ ys ↔
      (∃ zs, s = xs ++ zs ∧ ys = zs ++ d :: t) ∨ ∃ zs, xs = s ++ d :: zs ∧ t = zs ++ ys := by
  constructor
  · intro h
    obtain ⟨zs, rfl, hz⟩ | ⟨zs, rfl, rfl⟩ := List.append_eq_append_iff.mp h
    · obtain ⟨rfl, rfl⟩ | ⟨zs, rfl, rfl⟩ := List.cons_eq_append_iff.mp hz
      · exact .inl ⟨[], by simp, rfl⟩
      · exact .inr ⟨zs, rfl, rfl⟩
    · exact .inl ⟨zs, rfl, rfl⟩
  · rintro (⟨zs, rfl, rfl⟩ | ⟨zs, rfl, rfl⟩) <;> simp

/-- No run goes over a separator, so each is a run of what stands before it or behind it. -/
theorem runAt_append_sep_iff (hd : sep d = true) :
    RunAt sep (s ++ d :: t) place run ↔
      RunAt sep s place run ∨ ∃ p, place = s.length + 1 + p ∧ RunAt sep t p run := by
  constructor
  · rintro ⟨front, back, heq, rfl, hrun⟩
    obtain ⟨zs, rfl, rfl⟩ | ⟨zs, hfront, rfl⟩ := append_cons_eq_append_iff.mp heq
    · exact .inl ⟨front, zs, rfl, rfl, (isRun_append_cons_sep hd t).mp hrun⟩
    · -- The separator stands before the end of the run, so before its beginning as well.
      obtain ⟨ws, rfl, rfl⟩ | ⟨ws, rfl, rfl⟩ := append_cons_eq_append_iff.mp hfront.symm
      · exact absurd hd (Bool.eq_false_iff.mp (hrun.solid d (by simp)))
      · refine .inr ⟨ws.length, ?_, ws, back, rfl, rfl, (isRun_append_sep_cons hd s).mp hrun⟩
        simp only [List.length_append, List.length_cons]
        omega
  · rintro (h | ⟨p, rfl, h⟩)
    · exact h.append_sep hd t
    · exact h.sep_append hd s

/-- A text without separators has one run, unless it is empty. -/
theorem runAt_iff_of_forall (h : ∀ c ∈ s, sep c = false) :
    RunAt sep s place run ↔ s ≠ [] ∧ place = 0 ∧ run = s := by
  constructor
  · rintro ⟨front, back, rfl, rfl, hrun⟩
    have hnot : ∀ c ∈ front ++ run ++ back, ¬ sep c = true := fun c hc =>
      Bool.eq_false_iff.mp (h c hc)
    have hfront : front = [] := by
      rw [← List.getLast?_eq_none_iff, Option.eq_none_iff_forall_not_mem]
      intro c hc
      exact hnot c (by simp [List.mem_of_getLast? hc]) (hrun.before c hc)
    have hback : back = [] := by
      rw [← List.head?_eq_none_iff, Option.eq_none_iff_forall_not_mem]
      intro c hc
      exact hnot c (by simp [List.mem_of_mem_head? hc]) (hrun.behind c hc)
    subst hfront hback
    simpa using hrun.ne_nil
  · rintro ⟨hne, rfl, rfl⟩
    exact ⟨[], [], by simp, rfl, hne, h, by simp, by simp⟩

/-- What holds of texts without separators, and of a text with a separator in it if it holds of
both sides, holds of all texts. -/
@[elab_as_elim]
theorem cutInduction (sep : α → Bool) {motive : List α → Prop}
    (solid : ∀ s, (∀ c ∈ s, sep c = false) → motive s)
    (cut : ∀ s d t, sep d = true → motive s → motive t → motive (s ++ d :: t)) (s : List α) :
    motive s := by
  by_cases h : ∀ c ∈ s, sep c = false
  · exact solid s h
  · push Not at h
    obtain ⟨d, hmem, hd⟩ := h
    obtain ⟨front, back, rfl⟩ := List.append_of_mem hmem
    exact cut front d back (by simpa using hd) (cutInduction sep solid cut front)
      (cutInduction sep solid cut back)
termination_by s.length

end Runs

end Text

namespace TypeExpr

open Text (RunAt)

/-! ## Lists of names -/

section ListsNames

variable {s t : List Char} {xs ys : List String} {name later : String} {d : Char}

/-- The one name is found at a place before all places of the other. -/
def ComesBefore (s : List Char) (name later : String) : Prop :=
  ∃ place, RunAt isDelimiter s place name.toList ∧
    ∀ p, RunAt isDelimiter s p later.toList → place < p

/-- The runs of a text, in the order of the places where they begin first. -/
structure ListsNames (s : List Char) (names : List String) : Prop where
  mem_iff : ∀ name, name ∈ names ↔ ∃ place, RunAt isDelimiter s place name.toList
  order : names.Pairwise (ComesBefore s)

theorem ListsNames.nodup (h : ListsNames s xs) : xs.Nodup := by
  apply h.order.imp
  rintro name later ⟨place, hname, hfirst⟩ rfl
  exact lt_irrefl _ (hfirst place hname)

theorem ListsNames.isWord (h : ListsNames s xs) : ∀ name ∈ xs, IsWord name := by
  intro name hn
  obtain ⟨place, front, back, -, -, hrun⟩ := (h.mem_iff name).mp hn
  refine ⟨?_, hrun.solid⟩
  rw [← String.toList_eq_nil_iff.ne]
  exact hrun.ne_nil

/-- A name on the left comes before all that is found there only behind it, or not at all. -/
theorem comesBefore_of_left (hd : isDelimiter d = true) (t : List Char) {place : Nat}
    (hname : RunAt isDelimiter s place name.toList)
    (hlater : ∀ p, RunAt isDelimiter s p later.toList → place < p) :
    ComesBefore (s ++ d :: t) name later := by
  refine ⟨place, hname.append_sep hd t, fun p hp => ?_⟩
  obtain hp | ⟨p, rfl, -⟩ := (Text.runAt_append_sep_iff hd).mp hp
  · exact hlater p hp
  · have hlt := hname.place_lt
    omega

theorem ComesBefore.of_right (h : ComesBefore t name later) (hd : isDelimiter d = true)
    (hnew : ∀ p, ¬ RunAt isDelimiter s p later.toList) : ComesBefore (s ++ d :: t) name later := by
  obtain ⟨place, hname, hfirst⟩ := h
  refine ⟨s.length + 1 + place, hname.sep_append hd s, fun p hp => ?_⟩
  obtain hp | ⟨q, rfl, hq⟩ := (Text.runAt_append_sep_iff hd).mp hp
  · exact absurd hp (hnew p)
  · have hlt := hfirst q hq
    omega

/-- The names on both sides of a delimiter, each where it comes first, are the names of the
whole. -/
theorem ListsNames.append (hs : ListsNames s xs) (ht : ListsNames t ys)
    (hd : isDelimiter d = true) : ListsNames (s ++ d :: t) (xs ++ ys).eraseDups where
  mem_iff name := by
    rw [List.mem_eraseDups, List.mem_append, hs.mem_iff, ht.mem_iff]
    constructor
    · rintro (⟨place, h⟩ | ⟨place, h⟩)
      · exact ⟨place, h.append_sep hd t⟩
      · exact ⟨_, h.sep_append hd s⟩
    · rintro ⟨place, h⟩
      obtain h | ⟨p, -, h⟩ := (Text.runAt_append_sep_iff hd).mp h
      · exact .inl ⟨place, h⟩
      · exact .inr ⟨p, h⟩
  order := by
    -- What the right side adds to the list is found nowhere on the left.
    have hnew : ∀ later ∈ (ys.removeAll xs).eraseDups,
        ∀ p, ¬ RunAt isDelimiter s p later.toList := by
      intro later hl p hp
      simp only [List.mem_eraseDups, List.removeAll, List.mem_filter] at hl
      simpa [(hs.mem_iff later).mpr ⟨p, hp⟩] using hl.2
    rw [List.eraseDups_append]
    refine List.pairwise_append.mpr ⟨?_, ?_, ?_⟩
    · apply (hs.order.sublist (eraseDups_sublist xs)).imp
      rintro name later ⟨place, hname, hlater⟩
      exact comesBefore_of_left hd t hname hlater
    · have hright : (ys.removeAll xs).eraseDups.Pairwise (ComesBefore t) :=
        ht.order.sublist ((eraseDups_sublist _).trans List.filter_sublist)
      exact hright.imp_of_mem fun _ hl h => h.of_right hd (hnew _ hl)
    · intro name hn later hl
      obtain ⟨place, hname⟩ := (hs.mem_iff name).mp (List.mem_eraseDups.mp hn)
      exact comesBefore_of_left hd t hname fun p hp => absurd hp (hnew later hl p)

end ListsNames

/-! ## Source text -/

theorem sourceNames_append_delimiter {d : Char} (hd : isDelimiter d = true) (s t : List Char) :
    sourceNames (s ++ d :: t) = (sourceNames s ++ sourceNames t).eraseDups := by
  rw [sourceNames, Text.tokens_append_sep isDelimiter s t hd, List.map_append,
    ← eraseDups_append_eraseDups]
  rfl

theorem sourceNames_of_forall {s : List Char} (hne : s ≠ [])
    (h : ∀ c ∈ s, isDelimiter c = false) : sourceNames s = [String.ofList s] := by
  rw [sourceNames, Text.tokens_of_forall hne h]
  rfl

theorem listsNames_of_forall {s : List Char} (h : ∀ c ∈ s, isDelimiter c = false) :
    ListsNames s (sourceNames s) := by
  by_cases hne : s = []
  · subst hne
    refine ⟨fun name => ?_, List.Pairwise.nil⟩
    simp [sourceNames, Text.runAt_iff_of_forall h]
  · rw [sourceNames_of_forall hne h]
    refine ⟨fun name => ?_, List.pairwise_singleton _ _⟩
    have htext : name = String.ofList s ↔ name.toList = s := by
      rw [← String.toList_inj, String.toList_ofList]
    simp [Text.runAt_iff_of_forall h, hne, htext]

/-- The names found in a text are its runs, by the same cuts. -/
theorem listsNames_sourceNames (s : List Char) : ListsNames s (sourceNames s) := by
  induction s using Text.cutInduction isDelimiter with
  | solid s h => exact listsNames_of_forall h
  | cut s d t hd hs ht =>
      rw [sourceNames_append_delimiter hd]
      exact hs.append ht hd

/-- Source text is read piece by piece. A delimiter separates the names before it from those
behind it, which are put together in the order of their first occurrence; a word is read as itself,
and from the empty text nothing is read. So the names in a text are all different, are words, and
are exactly the runs of the text, in the order of the places where these begin first. -/
theorem names_source_compositional :
    (∀ (a b : String) (d : Char), isDelimiter d = true →
      (source (a ++ String.singleton d ++ b)).names =
        ((source a).names ++ (source b).names).eraseDups) ∧
    (∀ word : String, IsWord word → (source word).names = [word]) ∧
    (source "").names = [] ∧
    ∀ text : String, (source text).names.Nodup ∧ (∀ name ∈ (source text).names, IsWord name) ∧
      ListsNames text.toList (source text).names := by
  refine ⟨fun a b d hd => ?_, fun word h => ?_, rfl, fun text => ?_⟩
  · have hchars : (a ++ String.singleton d ++ b).toList = a.toList ++ d :: b.toList := by simp
    rw [names, hchars]
    exact sourceNames_append_delimiter hd a.toList b.toList
  · have hne : word.toList ≠ [] := String.toList_eq_nil_iff.ne.mpr h.1
    rw [names, sourceNames_of_forall hne h.2, String.ofList_toList]
  · have hlists : ListsNames text.toList (source text).names :=
      listsNames_sourceNames text.toList
    exact ⟨hlists.nodup, hlists.isWord, hlists⟩

/-- An em space between two texts that both name a key and have delimiters at their ends, and a
text of delimiters only. -/
theorem names_source_compositional_keys :
    isDelimiter '\u2003' = true ∧
      (source (" Map<Key, " ++ String.singleton '\u2003' ++ ",List[Key]|Größe.. ")).names =
        ["Map", "Key", "List", "Größe"] ∧
      IsWord "Größe" ∧ (source "Größe").names = ["Größe"] ∧
      (source "<.|> ").names = [] ∧ ListsNames "<.|> ".toList [] := by
  obtain ⟨hcut, hword, -, htext⟩ := names_source_compositional
  have hspace : isDelimiter '\u2003' = true := by decide
  have hsolid : IsWord "Größe" := by decide
  have hempty : (source "<.|> ").names = [] := by decide +kernel
  refine ⟨hspace, ?_, hsolid, hword "Größe" hsolid, hempty, ?_⟩
  · rw [hcut " Map<Key, " ",List[Key]|Größe.. " '\u2003' hspace]
    decide +kernel
  · rw [← hempty]
    exact (htext "<.|> ").2.2

end TypeExpr

end ClassDiagram
