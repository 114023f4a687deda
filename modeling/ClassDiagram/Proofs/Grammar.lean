import ClassDiagram.Annotation
import Mathlib.Data.List.Induction
import Mathlib.Data.List.TakeWhile

/-!
# The grammar of annotations

The grammar looks at the words before a target as a whole: every word is of one
class, the words in front of the arrow describe the near side, those behind it
the far side, and each side has room for so many words of a class. What may
stand before a target is closed under beginnings, so a body that breaks the
grammar has a first word that does not fit behind the words before it.
-/

namespace ClassDiagram.Annotation

/-! ## Classes of words -/

/-- A word that is no arrow, no multiplicity and no option. -/
def isLabel (word : String) : Bool :=
  !isArrow word && !isMultiplicity word.toList && word.toList.head? != some '$'

/-- The key of an option. -/
def optionKey? (word : String) : Option String :=
  match word.toList with
  | '$' :: key => some (String.ofList key)
  | _ => none

theorem mem_of_afterBound? {s rest : List Char} (h : Multiplicity.afterBound? s = some rest)
    (hm : '-' ∈ s) : '-' ∈ rest := by
  unfold Multiplicity.afterBound? at h
  split at h
  · next tail =>
      obtain rfl := Option.some.inj h
      simpa using hm
  · next c tail _ =>
      split at h
      · next hc =>
          obtain rfl := Option.some.inj h
          have hne : ¬ '-' = c := by
            rintro rfl
            exact absurd hc (by decide)
          have htail : '-' ∈ tail.takeWhile Char.isDigit ++ tail.dropWhile Char.isDigit := by
            rw [List.takeWhile_append_dropWhile]
            simpa [hne] using hm
          rcases List.mem_append.mp htail with ht | hd
          · exact absurd (List.mem_takeWhile_imp ht) (by decide)
          · exact hd
      · cases h
  · cases h

theorem not_mem_of_isMultiplicity {s : List Char} (h : isMultiplicity s = true) : '-' ∉ s := by
  intro hm
  unfold isMultiplicity at h
  split at h
  · next hs => exact absurd (mem_of_afterBound? hs hm) List.not_mem_nil
  · next rest hs =>
      have hrest : '-' ∈ rest := by simpa using mem_of_afterBound? hs hm
      exact absurd (mem_of_afterBound? (of_decide_eq_true h) hrest) List.not_mem_nil
  · cases h

theorem isMultiplicity_dollar (s : List Char) : isMultiplicity ('$' :: s) = false := by
  have hd : Char.isDigit '$' = false := by decide
  simp [isMultiplicity, Multiplicity.afterBound?, hd]

theorem dash_mem_of_isArrow {word : String} (h : isArrow word = true) : '-' ∈ word.toList := by
  simp only [isArrow, Bool.and_eq_true, List.contains_iff_mem] at h
  exact h.2

/-- The classes exclude each other. -/
theorem classify_cases (word : String) :
    (classify word = .arrow ∧ isArrow word = true ∧ isMultiplicity word.toList = false ∧
        optionKey? word = none ∧ isLabel word = false) ∨
      (classify word = .multiplicity ∧ isArrow word = false ∧ isMultiplicity word.toList = true ∧
        optionKey? word = none ∧ isLabel word = false) ∨
      (∃ key, classify word = .option key ∧ isArrow word = false ∧
        isMultiplicity word.toList = false ∧ optionKey? word = some key ∧ isLabel word = false) ∨
      (classify word = .label ∧ isArrow word = false ∧ isMultiplicity word.toList = false ∧
        optionKey? word = none ∧ isLabel word = true) := by
  by_cases hd : word.toList.head? = some '$'
  · obtain ⟨key, hk⟩ := List.head?_eq_some_iff.mp hd
    have ha : isArrow word = false := by simp [isArrow, hd]
    have hm : isMultiplicity word.toList = false := by rw [hk, isMultiplicity_dollar]
    refine Or.inr (Or.inr (Or.inl ⟨String.ofList key, ?_, ha, hm, ?_, ?_⟩))
    · simp [classify, ha, hk, isMultiplicity_dollar]
    · simp [optionKey?, hk]
    · simp [isLabel, hd]
  · have hk : optionKey? word = none := by
      unfold optionKey?
      split
      · next key hkey => exact absurd (by rw [hkey]; rfl) hd
      · rfl
    cases ha : isArrow word with
    | true =>
        have hm : isMultiplicity word.toList = false := by
          rw [Bool.eq_false_iff]
          intro hm
          exact not_mem_of_isMultiplicity hm (dash_mem_of_isArrow ha)
        exact Or.inl ⟨by simp [classify, ha], rfl, hm, hk, by simp [isLabel, ha]⟩
    | false =>
        cases hm : isMultiplicity word.toList with
        | true =>
            exact Or.inr (Or.inl ⟨by simp [classify, ha, hm], rfl, rfl, hk,
              by simp [isLabel, hm]⟩)
        | false =>
            refine Or.inr (Or.inr (Or.inr ⟨?_, rfl, rfl, hk, by simp [isLabel, ha, hm, hd]⟩))
            rw [classify, ha, hm]
            simp only [Bool.false_eq_true, if_false]
            split
            · next key hkey => exact absurd (by rw [hkey]; rfl) hd
            · rfl

theorem eq_empty_iff_of_optionKey? {word key : String} (h : optionKey? word = some key) :
    key = "" ↔ word = "$" := by
  unfold optionKey? at h
  split at h
  · next chars hw =>
      obtain rfl := Option.some.inj h
      have hdollar : word = "$" ↔ '$' :: chars = ['$'] := by
        rw [← hw]
        exact String.toList_inj.symm
      simp [hdollar]
  · cases h

/-! ## Sides -/

/-- The arrows among words. -/
def arrows (body : List String) : List String :=
  body.filter isArrow

/-- The words that describe a side: those in front of the first arrow, or those behind it. -/
def wordsOf (body : List String) : Side → List String
  | .a => body.takeWhile (!isArrow ·)
  | .b => (body.dropWhile (!isArrow ·)).drop 1

/-- The side that a word behind the others describes. -/
def sideAt (body : List String) : Side :=
  if arrows body = [] then .a else .b

def multiplicities (words : List String) : List String :=
  words.filter (isMultiplicity ·.toList)

def labels (words : List String) : List String :=
  words.filter isLabel

def optionKeys (words : List String) : List String :=
  words.filterMap optionKey?

/-- How many labels a side has room for: a role, and on the near side a name. -/
def room : Side → Nat
  | .a => 2
  | .b => 1

/-- What may stand before a target, but for the arrow, which may still be missing. -/
structure Tolerated (body : List String) : Prop where
  arrow : (arrows body).length ≤ 1
  multiplicity : ∀ side, (multiplicities (wordsOf body side)).length ≤ 1
  label : ∀ side, (labels (wordsOf body side)).length ≤ room side
  option : "$" ∉ body

instance (body : List String) : Decidable (Tolerated body) :=
  decidable_of_iff
    ((arrows body).length ≤ 1 ∧
      ((multiplicities (wordsOf body .a)).length ≤ 1 ∧
        (multiplicities (wordsOf body .b)).length ≤ 1) ∧
      ((labels (wordsOf body .a)).length ≤ 2 ∧ (labels (wordsOf body .b)).length ≤ 1) ∧
      "$" ∉ body)
    ⟨fun ⟨ha, hm, hl, ho⟩ => ⟨ha, Side.rec hm.1 hm.2, Side.rec hl.1 hl.2, ho⟩,
      fun h => ⟨h.arrow, ⟨h.multiplicity .a, h.multiplicity .b⟩, ⟨h.label .a, h.label .b⟩,
        h.option⟩⟩

/-- What may stand before a target. -/
structure Grammatical (body : List String) : Prop extends Tolerated body where
  hasArrow : (arrows body).length = 1

theorem Tolerated.length_arrows {body : List String} (h : Tolerated body)
    (ha : arrows body ≠ []) : (arrows body).length = 1 := by
  have hpos := List.length_pos_iff.mpr ha
  have hle := h.arrow
  omega

theorem Grammatical.arrows_ne_nil {body : List String} (h : Grammatical body) :
    arrows body ≠ [] := by
  have hone := h.hasArrow
  intro hn
  rw [hn] at hone
  cases hone

theorem arrows_eq_nil_iff {body : List String} :
    arrows body = [] ↔ ∀ word ∈ body, (!isArrow word) = true := by
  simp [arrows, List.filter_eq_nil_iff]

/-- The words around the first arrow. -/
theorem wordsOf_arrow {front : List String} (h : arrows front = []) {arrow : String}
    (ha : isArrow arrow = true) (behind : List String) :
    wordsOf (front ++ arrow :: behind) .a = front ∧
      wordsOf (front ++ arrow :: behind) .b = behind := by
  constructor
  · simp [wordsOf, List.takeWhile_append_of_pos (arrows_eq_nil_iff.mp h), ha]
  · simp [wordsOf, List.dropWhile_append_of_pos (arrows_eq_nil_iff.mp h), ha]

theorem wordsOf_of_arrows_eq_nil {body : List String} (h : arrows body = []) :
    wordsOf body .a = body ∧ wordsOf body .b = [] := by
  constructor
  · exact List.takeWhile_eq_self_iff.mpr (arrows_eq_nil_iff.mp h)
  · rw [wordsOf, List.dropWhile_eq_nil_iff.mpr (arrows_eq_nil_iff.mp h), List.drop_nil]

theorem exists_eq_append_arrow {body : List String} (h : arrows body ≠ []) :
    ∃ front arrow behind, body = front ++ arrow :: behind ∧ arrows front = [] ∧
      isArrow arrow = true := by
  obtain ⟨first, hfirst⟩ := Option.isSome_iff_exists.mp (List.isSome_head?.mpr h)
  rw [arrows, List.head?_filter] at hfirst
  obtain ⟨ha, front, behind, rfl, hfront⟩ := List.find?_eq_some_iff_append.mp hfirst
  exact ⟨front, first, behind, rfl, arrows_eq_nil_iff.mpr hfront, ha⟩

theorem mem_of_mem_wordsOf {body : List String} {side : Side} {word : String}
    (h : word ∈ wordsOf body side) : word ∈ body := by
  cases side with
  | a => exact (List.takeWhile_prefix _).subset h
  | b => exact (List.dropWhile_suffix _).subset (List.mem_of_mem_drop h)

theorem optionKeys_sides {body : List String} (h : arrows body ≠ []) :
    optionKeys (wordsOf body .a ++ wordsOf body .b) = optionKeys body := by
  obtain ⟨front, arrow, behind, rfl, hfront, ha⟩ := exists_eq_append_arrow h
  obtain ⟨hnear, hfar⟩ := wordsOf_arrow hfront ha behind
  have hk : optionKey? arrow = none := by
    rcases classify_cases arrow with ⟨_, _, _, hk, _⟩ | ⟨_, hn, _⟩ | ⟨_, _, hn, _⟩ | ⟨_, hn, _⟩
    · exact hk
    all_goals exact absurd ha (by simp [hn])
  rw [hnear, hfar, optionKeys, optionKeys, List.filterMap_append, List.filterMap_append,
    List.filterMap_cons_none hk]

/-! ## One more word -/

@[simp] theorem optionKeys_append_singleton (words : List String) (word : String) :
    optionKeys (words ++ [word]) = optionKeys words ++ (optionKey? word).toList := by
  cases h : optionKey? word <;> simp [optionKeys, h]

theorem arrows_append_arrow (body : List String) {word : String} (h : isArrow word = true) :
    arrows (body ++ [word]) = arrows body ++ [word] := by
  simp [arrows, h]

@[simp] theorem arrows_append_word (body : List String) {word : String}
    (h : isArrow word = false) :
    arrows (body ++ [word]) = arrows body := by
  simp [arrows, h]

theorem wordsOf_append_arrow {body : List String} (hb : arrows body = []) {word : String}
    (h : isArrow word = true) (side : Side) :
    wordsOf (body ++ [word]) side = wordsOf body side := by
  obtain ⟨ha, hb'⟩ := wordsOf_arrow hb h []
  obtain ⟨hfront, hbehind⟩ := wordsOf_of_arrows_eq_nil hb
  cases side with
  | a => rw [ha, hfront]
  | b => rw [hb', hbehind]

theorem wordsOf_append_word (body : List String) {word : String} (h : isArrow word = false)
    (side : Side) :
    wordsOf (body ++ [word]) side =
      if side = sideAt body then wordsOf body side ++ [word] else wordsOf body side := by
  by_cases hb : arrows body = []
  · obtain ⟨hfront, hbehind⟩ := wordsOf_of_arrows_eq_nil hb
    obtain ⟨hfront', hbehind'⟩ :=
      wordsOf_of_arrows_eq_nil ((arrows_append_word body h).trans hb)
    cases side with
    | a => simp [hfront, hfront', sideAt, hb]
    | b => simp [hbehind, hbehind', sideAt, hb]
  · obtain ⟨front, arrow, behind, rfl, hfront, ha⟩ := exists_eq_append_arrow hb
    obtain ⟨hnear, hfar⟩ := wordsOf_arrow hfront ha behind
    obtain ⟨hnear', hfar'⟩ := wordsOf_arrow hfront ha (behind ++ [word])
    rw [List.append_assoc, List.cons_append]
    cases side with
    | a => simp [hnear, hnear', sideAt, hb]
    | b => simp [hfar, hfar', sideAt, hb]

theorem tolerated_append_arrow_iff (body : List String) {word : String} (h : isArrow word = true) :
    Tolerated (body ++ [word]) ↔ Tolerated body ∧ arrows body = [] := by
  have hword : word ≠ "$" := by
    rintro rfl
    exact absurd h (by decide)
  constructor
  · intro ht
    have hlen := ht.arrow
    rw [arrows_append_arrow body h, List.length_append, List.length_singleton] at hlen
    have hb : arrows body = [] := List.eq_nil_of_length_eq_zero (by omega)
    refine ⟨⟨by simp [hb], ?_, ?_, fun hm => ht.option (List.mem_append_left _ hm)⟩, hb⟩
    · intro side
      simpa only [wordsOf_append_arrow hb h] using ht.multiplicity side
    · intro side
      simpa only [wordsOf_append_arrow hb h] using ht.label side
  · rintro ⟨ht, hb⟩
    refine ⟨by simp [arrows_append_arrow body h, hb], ?_, ?_, ?_⟩
    · intro side
      simpa only [wordsOf_append_arrow hb h] using ht.multiplicity side
    · intro side
      simpa only [wordsOf_append_arrow hb h] using ht.label side
    · simpa [hword.symm] using ht.option

@[simp] theorem multiplicities_append_word (body : List String) {word : String}
    (h : isArrow word = false) (side : Side) :
    multiplicities (wordsOf (body ++ [word]) side) =
      if side = sideAt body ∧ isMultiplicity word.toList then
        multiplicities (wordsOf body side) ++ [word]
      else multiplicities (wordsOf body side) := by
  rw [wordsOf_append_word body h]
  by_cases hs : side = sideAt body
  · by_cases hm : isMultiplicity word.toList = true <;> simp [multiplicities, hs, hm]
  · simp [hs]

@[simp] theorem labels_append_word (body : List String) {word : String} (h : isArrow word = false)
    (side : Side) :
    labels (wordsOf (body ++ [word]) side) =
      if side = sideAt body ∧ isLabel word then labels (wordsOf body side) ++ [word]
      else labels (wordsOf body side) := by
  rw [wordsOf_append_word body h]
  by_cases hs : side = sideAt body
  · by_cases hl : isLabel word = true <;> simp [labels, hs, hl]
  · simp [hs]

/-- A word that is no arrow has to find room on its side. -/
theorem tolerated_append_word_iff (body : List String) {word : String}
    (h : isArrow word = false) :
    Tolerated (body ++ [word]) ↔ Tolerated body ∧
      (isMultiplicity word.toList = true →
        (multiplicities (wordsOf body (sideAt body))).length < 1) ∧
      (isLabel word = true → (labels (wordsOf body (sideAt body))).length < room (sideAt body)) ∧
      word ≠ "$" := by
  constructor
  · intro ht
    have hms := ht.multiplicity
    have hls := ht.label
    simp only [multiplicities_append_word body h, labels_append_word body h] at hms hls
    refine ⟨⟨?_, ?_, ?_, ?_⟩, ?_, ?_, ?_⟩
    · simpa only [arrows_append_word body h] using ht.arrow
    · intro side
      refine le_trans ?_ (hms side)
      split <;> simp
    · intro side
      refine le_trans ?_ (hls side)
      split <;> simp
    · exact fun hm => ht.option (List.mem_append_left _ hm)
    · intro hm
      simpa [hm] using hms (sideAt body)
    · intro hl
      simpa [hl, Nat.succ_le_iff] using hls (sideAt body)
    · rintro rfl
      exact ht.option (List.mem_append_right _ (List.mem_singleton_self _))
  · rintro ⟨ht, hm, hl, hword⟩
    refine ⟨?_, ?_, ?_, ?_⟩
    · simpa only [arrows_append_word body h] using ht.arrow
    · intro side
      rw [multiplicities_append_word body h]
      split
      · next hs => simpa [hs.1] using hm hs.2
      · exact ht.multiplicity side
    · intro side
      rw [labels_append_word body h]
      split
      · next hs => simpa [hs.1, Nat.succ_le_iff] using hl hs.2
      · exact ht.label side
    · simpa [hword.symm] using ht.option

theorem Tolerated.of_append {front behind : List String} (h : Tolerated (front ++ behind)) :
    Tolerated front := by
  induction behind using List.reverseRecOn with
  | nil => simpa using h
  | append_singleton behind word ih =>
      rw [← List.append_assoc] at h
      cases hw : isArrow word with
      | true => exact ih ((tolerated_append_arrow_iff _ hw).mp h).1
      | false => exact ih ((tolerated_append_word_iff _ hw).mp h).1

theorem tolerated_nil : Tolerated [] := by
  decide

/-- A body that breaks the grammar has a first word that does not fit. -/
theorem exists_first_misfit {body : List String} (h : ¬ Tolerated body) :
    ∃ front word behind, body = front ++ word :: behind ∧ Tolerated front ∧
      ¬ Tolerated (front ++ [word]) := by
  induction body using List.reverseRecOn with
  | nil => exact absurd tolerated_nil h
  | append_singleton body word ih =>
      by_cases hb : Tolerated body
      · exact ⟨body, word, [], rfl, hb, h⟩
      · obtain ⟨front, misfit, behind, rfl, hfront, hmisfit⟩ := ih hb
        exact ⟨front, misfit, behind ++ [word], by simp, hfront, hmisfit⟩

end ClassDiagram.Annotation
