import ClassDiagram.Multiplicity
import Mathlib.Data.List.TakeWhile

/-!
# The language of multiplicities

A number is read to its last digit, so what is behind the first bound of a text is known before
anything else is looked at. It has to be nothing, or two points with one more bound that takes up
all the rest. No other text is accepted.

## Implementation notes

The grammar of multiplicities can be put together from readers: a bound is a choice of a star and
a run of digits, and what may be behind it is an option. Of the readers and of the ways to combine
them only their laws are known here (`Readers.Lawful`). An option that does not fit gives back
what it has read, which is why two points without a bound behind them are left over and refused.
-/

namespace ClassDiagram

namespace Multiplicity

/-- A star, or a number in ASCII digits. -/
def IsBound (s : List Char) : Prop :=
  s = ['*'] ∨ s ≠ [] ∧ ∀ c ∈ s, '0' ≤ c ∧ c ≤ '9'

/-- One bound, or two with two points between them. -/
def Written (s : List Char) : Prop :=
  IsBound s ∨
    ∃ lower upper, IsBound lower ∧ IsBound upper ∧ s = lower ++ ['.', '.'] ++ upper

theorem isDigit_iff (c : Char) : c.isDigit = true ↔ '0' ≤ c ∧ c ≤ '9' := by
  rw [Char.isDigit, Bool.and_eq_true, decide_eq_true_eq, decide_eq_true_eq]
  exact Iff.rfl

/-- A bound is read as far as it goes, provided that a number does not go on behind it. -/
theorem afterBound?_append {bound rest : List Char} (h : IsBound bound)
    (hrest : ∀ c ∈ rest.head?, c.isDigit = false) :
    afterBound? (bound ++ rest) = some rest := by
  rcases h with rfl | ⟨hne, hdigits⟩
  · rfl
  · obtain ⟨c, more, rfl⟩ := List.exists_cons_of_ne_nil hne
    have hc : c.isDigit = true := (isDigit_iff c).mpr (hdigits c List.mem_cons_self)
    have hmore : ∀ d ∈ more, d.isDigit = true := fun d hd =>
      (isDigit_iff d).mpr (hdigits d (List.mem_cons_of_mem c hd))
    have hstop : rest.dropWhile Char.isDigit = rest := by
      cases rest with
      | nil => rfl
      | cons d rest => exact List.dropWhile_cons_of_neg (by simp [hrest d rfl])
    have hstar : c ≠ '*' := by
      rintro rfl
      exact absurd hc (by decide)
    calc
      afterBound? (c :: more ++ rest) = some ((more ++ rest).dropWhile Char.isDigit) := by
        rw [List.cons_append, afterBound?.eq_2 c _ hstar, if_pos hc]
      _ = some rest := by rw [List.dropWhile_append_of_pos hmore, hstop]

theorem exists_bound_of_afterBound? {s rest : List Char} (h : afterBound? s = some rest) :
    ∃ bound, IsBound bound ∧ s = bound ++ rest := by
  unfold afterBound? at h
  split at h
  · next tail =>
      obtain rfl := Option.some.inj h
      exact ⟨['*'], Or.inl rfl, rfl⟩
  · next c tail _ =>
      split at h
      · next hc =>
          obtain rfl := Option.some.inj h
          refine ⟨c :: tail.takeWhile Char.isDigit, Or.inr ⟨List.cons_ne_nil _ _, ?_⟩, ?_⟩
          · intro d hd
            rcases List.mem_cons.mp hd with rfl | hd
            · exact (isDigit_iff d).mp hc
            · exact (isDigit_iff d).mp (List.mem_takeWhile_imp hd)
          · rw [List.cons_append, List.takeWhile_append_dropWhile]
      · cases h
  · cases h

theorem written_of_isMultiplicity {s : List Char} (h : isMultiplicity s = true) : Written s := by
  unfold isMultiplicity at h
  split at h
  · next hs =>
      obtain ⟨bound, hb, rfl⟩ := exists_bound_of_afterBound? hs
      rw [List.append_nil]
      exact Or.inl hb
  · next rest hs =>
      obtain ⟨lower, hl, rfl⟩ := exists_bound_of_afterBound? hs
      obtain ⟨upper, hu, rfl⟩ := exists_bound_of_afterBound? (of_decide_eq_true h)
      refine Or.inr ⟨lower, upper, hl, hu, ?_⟩
      rw [List.append_nil, List.append_assoc]
      rfl
  · cases h

theorem isMultiplicity_of_written {s : List Char} (h : Written s) : isMultiplicity s = true := by
  -- nothing is behind the last bound, and a point behind the first of two
  have hlast {bound : List Char} (hb : IsBound bound) : afterBound? bound = some [] := by
    have hread : afterBound? (bound ++ []) = some [] := afterBound?_append hb nofun
    rwa [List.append_nil] at hread
  rcases h with hb | ⟨lower, upper, hl, hu, rfl⟩
  · rw [isMultiplicity, hlast hb]
  · have hfirst : afterBound? (lower ++ ['.', '.'] ++ upper) = some ('.' :: '.' :: upper) := by
      rw [List.append_assoc]
      exact afterBound?_append hl fun c hc => by
        rw [← Option.some.inj hc]
        decide
    rw [isMultiplicity, hfirst]
    exact decide_eq_true (hlast hu)

/-! ## The grammar in readers -/

/-- A reader takes a beginning off a text and gives what is behind it, or refuses the text. -/
abbrev Reader := List Char → Option (List Char)

/-- Readers for words and numbers, and ways to combine readers. -/
structure Readers where
  literal : List Char → Reader
  digits : Reader
  choice : Reader → Reader → Reader
  optional : Reader → Reader
  sequence : Reader → Reader → Reader
  whole : Reader → List Char → Bool

namespace Readers

variable {R : Readers}

/-- What the readers and their combinations do. A word is read letter by letter, and digits as many
as there are. A choice tries its second reader on the same text if the first one refuses, an option
accepts and reads nothing then, and a sequence goes on with what is left. A whole text is read if
nothing is left of it. -/
structure Lawful (R : Readers) : Prop where
  literal : ∀ word s rest, R.literal word s = some rest ↔ s = word ++ rest
  digits : ∀ s, R.digits s =
    if s.takeWhile Char.isDigit = [] then none else some (s.dropWhile Char.isDigit)
  choice : ∀ first second s, R.choice first second s = (first s).or (second s)
  optional : ∀ reader s, R.optional reader s = some ((reader s).getD s)
  sequence : ∀ first second s, R.sequence first second s = (first s).bind second
  whole : ∀ reader s, R.whole reader s = true ↔ reader s = some []

/-- A star or digits. -/
def bound (R : Readers) : Reader :=
  R.choice (R.literal ['*']) R.digits

/-- A bound, and perhaps two points and one more bound. -/
def multiplicity (R : Readers) : Reader :=
  R.sequence R.bound (R.optional (R.sequence (R.literal ['.', '.']) R.bound))

theorem Lawful.literal_append (h : R.Lawful) (word rest : List Char) :
    R.literal word (word ++ rest) = some rest :=
  (h.literal word (word ++ rest) rest).mpr rfl

theorem Lawful.literal_eq_none_iff (h : R.Lawful) (word s : List Char) :
    R.literal word s = none ↔ ¬ word <+: s := by
  rw [Option.eq_none_iff_forall_ne_some]
  constructor
  · rintro hnone ⟨rest, hs⟩
    exact hnone rest ((h.literal word s rest).mpr hs.symm)
  · intro hword rest hs
    exact hword ⟨rest, ((h.literal word s rest).mp hs).symm⟩

theorem Lawful.bound_eq (h : R.Lawful) (s : List Char) :
    R.bound s = afterBound? s := by
  rw [bound, h.choice, h.digits]
  cases s with
  | nil =>
      have hnone : R.literal ['*'] [] = none :=
        (h.literal_eq_none_iff _ _).mpr (by simp)
      rw [hnone]
      rfl
  | cons c rest =>
      by_cases hstar : c = '*'
      · have hsome : R.literal ['*'] ('*' :: rest) = some rest := h.literal_append ['*'] rest
        rw [hstar, hsome]
        rfl
      · have hnone : R.literal ['*'] (c :: rest) = none :=
          (h.literal_eq_none_iff _ _).mpr (by simp [List.cons_prefix_cons, Ne.symm hstar])
        rw [hnone, afterBound?.eq_2 c rest hstar, Option.none_or]
        by_cases hc : c.isDigit = true <;> simp [hc]

/-- The grammar in readers accepts what is accepted as a multiplicity. -/
theorem Lawful.whole_multiplicity (h : R.Lawful) (s : List Char) :
    R.whole R.multiplicity s = isMultiplicity s := by
  have hread : R.multiplicity s = (afterBound? s).bind fun rest =>
      some (((R.literal ['.', '.'] rest).bind R.bound).getD rest) := by
    rw [multiplicity, h.sequence, h.bound_eq]
    congr 1
    funext rest
    rw [h.optional, h.sequence]
  rw [Bool.eq_iff_iff, h.whole, hread, isMultiplicity]
  split
  · next hs =>
      have hnone : R.literal ['.', '.'] [] = none :=
        (h.literal_eq_none_iff _ _).mpr (by simp)
      simp [hs, hnone]
  · next rest hs =>
      have hsome : R.literal ['.', '.'] ('.' :: '.' :: rest) = some rest :=
        h.literal_append ['.', '.'] rest
      rw [hs, Option.bind_some, hsome, Option.bind_some, h.bound_eq]
      cases afterBound? rest <;> simp
  · next hempty hpoints =>
      -- what is left does not open with two points, so the option reads nothing of it
      cases hs : afterBound? s with
      | none => simp
      | some rest =>
          have hnone : R.literal ['.', '.'] rest = none := by
            rw [h.literal_eq_none_iff]
            rintro ⟨behind, rfl⟩
            exact hpoints behind hs
          have hne : rest ≠ [] := by
            rintro rfl
            exact hempty hs
          simp [hnone, hne]

end Readers

end Multiplicity

/-- A text is a multiplicity exactly if it is a bound, or two with two points between them, and
any readers that keep to their laws accept the same texts. -/
theorem isMultiplicity_iff_written (s : List Char) :
    (isMultiplicity s = true ↔ Multiplicity.Written s) ∧
      ∀ R : Multiplicity.Readers, R.Lawful → R.whole R.multiplicity s = isMultiplicity s :=
  ⟨⟨Multiplicity.written_of_isMultiplicity, Multiplicity.isMultiplicity_of_written⟩,
    fun _ h => h.whole_multiplicity s⟩

namespace Multiplicity

/-- Readers that do what the laws say and nothing more. -/
def plainReaders : Readers where
  literal word s := if word <+: s then some (s.drop word.length) else none
  digits s := if s.takeWhile Char.isDigit = [] then none else some (s.dropWhile Char.isDigit)
  choice first second s := (first s).or (second s)
  optional reader s := some ((reader s).getD s)
  sequence first second s := (first s).bind second
  whole reader s := reader s == some []

theorem lawful_plainReaders : plainReaders.Lawful where
  literal word s rest := by
    change (if word <+: s then some (s.drop word.length) else none) = some rest ↔ _
    constructor
    · intro h
      split at h
      · next hword =>
          obtain ⟨behind, rfl⟩ := hword
          rw [← Option.some.inj h, List.drop_left]
      · cases h
    · rintro rfl
      rw [if_pos (List.prefix_append word rest), List.drop_left]
  digits _ := rfl
  choice _ _ _ := rfl
  optional _ _ := rfl
  sequence _ _ _ := rfl
  whole _ _ := beq_iff_eq

end Multiplicity

/-- Points that are followed by a bound belong to the multiplicity, and points that are not spoil
it. -/
theorem isMultiplicity_iff_written_plain :
    Multiplicity.plainReaders.Lawful ∧
      Multiplicity.Written "12..*".toList ∧
      Multiplicity.plainReaders.whole Multiplicity.plainReaders.multiplicity "12..*".toList = true ∧
      ¬ Multiplicity.Written "1...2".toList ∧
      Multiplicity.plainReaders.whole Multiplicity.plainReaders.multiplicity "1..".toList =
        false := by
  have hlaws := Multiplicity.lawful_plainReaders
  refine ⟨hlaws, (isMultiplicity_iff_written _).1.mp (by decide), ?_, ?_, ?_⟩
  · rw [(isMultiplicity_iff_written _).2 _ hlaws]
    decide
  · rw [← (isMultiplicity_iff_written _).1]
    decide
  · rw [(isMultiplicity_iff_written _).2 _ hlaws]
    decide

end ClassDiagram
