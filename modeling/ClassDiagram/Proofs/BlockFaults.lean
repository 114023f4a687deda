import ClassDiagram.Proofs.Blocks
import Mathlib.Data.List.Sort

/-!
# What is wrong with a block

A text is no block, or a block that is not closed, or a block with stray lines, or a sound one.
These rules exclude each other and leave no text out, so they say exactly what reading gives, and
which lines are reported. The lenient policy keeps what the strict one accepts and passes over all
that it refuses.
-/

namespace ClassDiagram

open Text

namespace Block

/-! ## The delimiters -/

def opening : List Char := ['/', '*', '*']

def closing : List Char := ['*', '/']

/-- The text is no block: it does not begin like one, or it begins with the empty comment of
another form. -/
def Foreign (t : List Char) : Prop :=
  ¬ opening <+: t ∨ opening ++ ['/'] <+: t

/-- What stands behind the opening. -/
def behind (t : List Char) : List Char :=
  t.drop opening.length

/-- The text is a block, and this is what its delimiters enclose. -/
def Encloses (t inner : List Char) : Prop :=
  ¬ Foreign t ∧ behind t = inner ++ closing

theorem foreign_opening_append (body : List Char) :
    Foreign (opening ++ body) ↔ body.head? = some '/' := by
  have hopen : opening <+: opening ++ body := List.prefix_append _ _
  have hslash : ['/'] <+: body ↔ body.head? = some '/' := by
    cases body with
    | nil => simp
    | cons c rest => simp [eq_comm]
  rw [Foreign, List.prefix_append_right_inj, hslash]
  exact or_iff_right (not_not_intro hopen)

theorem eq_opening_append_behind {t : List Char} (h : ¬ Foreign t) : t = opening ++ behind t := by
  obtain ⟨body, rfl⟩ := not_not.mp (not_or.mp h).1
  rw [behind, List.drop_left]

theorem frame_eq_foreign {raw : List Char} (h : Foreign (trim raw)) : frame raw = .foreign := by
  unfold frame
  split
  · next body heq =>
      rw [heq] at h
      rw [if_pos ((foreign_opening_append body).mp h)]
  · rfl

theorem frame_of_not_foreign {raw : List Char} (h : ¬ Foreign (trim raw)) :
    frame raw = if closing.isSuffixOf (behind (trim raw)) then
      .inner ((behind (trim raw)).take ((behind (trim raw)).length - 2)) else .unterminated := by
  have heq : trim raw = '/' :: '*' :: '*' :: behind (trim raw) := eq_opening_append_behind h
  have hhead : (behind (trim raw)).head? ≠ some '/' := by
    rw [heq] at h
    exact mt (foreign_opening_append _).mpr h
  unfold frame
  split
  · next body hbody =>
      rw [heq] at hbody
      cases hbody
      rw [if_neg hhead]
      rfl
  · next hne => exact absurd heq (hne _)

theorem frame_eq_unterminated {raw : List Char} (h : ¬ Foreign (trim raw))
    (hend : ¬ closing <:+ behind (trim raw)) : frame raw = .unterminated := by
  rw [frame_of_not_foreign h, if_neg (mt List.isSuffixOf_iff_suffix.mp hend)]

theorem frame_eq_inner {raw inner : List Char} (h : Encloses (trim raw) inner) :
    frame raw = .inner inner := by
  have hend : closing <:+ behind (trim raw) := ⟨inner, h.2.symm⟩
  rw [frame_of_not_foreign h.1, if_pos (List.isSuffixOf_iff_suffix.mpr hend), h.2]
  simp [closing]

/-! ## Stray lines -/

/-- The line is not blank, and no star stands behind the spaces and tabs that it begins with. -/
def Stray (line : List Char) : Prop :=
  (∃ c ∈ line, isBlank c = false) ∧
    ¬ ∃ indent rest, line = indent ++ '*' :: rest ∧ ∀ c ∈ indent, isGap c = true

theorem isStray_iff (line : List Char) : isStray line = true ↔ Stray line := by
  have hstar : (afterStar? line).isNone = true ↔
      ¬ ∃ indent rest, line = indent ++ '*' :: rest ∧ ∀ c ∈ indent, isGap c = true := by
    rw [Option.isNone_iff_eq_none]
    constructor
    · rintro hnone ⟨indent, rest, rfl, hindent⟩
      obtain ⟨content, hsome, _⟩ := exists_afterStar? hindent rest
      rw [hnone] at hsome
      cases hsome
    · intro hno
      have hsplit (rest : List Char) (hrest : line.dropWhile isGap = '*' :: rest) : False := by
        refine hno ⟨line.takeWhile isGap, rest, ?_, fun c hc => List.mem_takeWhile_imp hc⟩
        rw [← hrest, List.takeWhile_append_dropWhile]
      unfold afterStar?
      split
      · next rest heq => exact (hsplit _ heq).elim
      · next rest _ heq => exact (hsplit _ heq).elim
      · rfl
  have hblank : (!line.all isBlank) = true ↔ ∃ c ∈ line, isBlank c = false := by
    simp
  rw [isStray, Bool.and_eq_true, hblank, hstar, Stray]

/-- A stray line behind the first one, at its number; the first line has the number one. -/
def StrayAt (ls : List (List Char)) (number : Nat) : Prop :=
  1 < number ∧ ∃ line, ls[number - 1]? = some line ∧ Stray line

/-- These are the numbers of the stray lines, in order. -/
structure ListsStray (ls : List (List Char)) (numbers : List Nat) : Prop where
  increasing : numbers.Pairwise (· < ·)
  mem_iff : ∀ number, number ∈ numbers ↔ StrayAt ls number

theorem ListsStray.eq {ls : List (List Char)} {numbers numbers' : List Nat}
    (h : ListsStray ls numbers) (h' : ListsStray ls numbers') : numbers = numbers' := by
  apply h.increasing.eq_of_mem_iff h'.increasing
  intro number
  rw [h.mem_iff, h'.mem_iff]

/-- The faults of the lines are the stray ones behind the first. -/
theorem exists_strayLines_eq (ls : List (List Char)) :
    ∃ numbers, ListsStray ls numbers ∧ strayLines ls.tail = numbers.map .strayLine := by
  refine ⟨((ls.tail.zipIdx 2).filter fun l => isStray l.1).map Prod.snd, ⟨?_, ?_⟩, ?_⟩
  · have hsub : (((ls.tail.zipIdx 2).filter fun l => isStray l.1).map Prod.snd).Sublist
        ((ls.tail.zipIdx 2).map Prod.snd) := List.filter_sublist.map _
    apply List.Pairwise.sublist hsub
    rw [List.zipIdx_map_snd]
    exact List.pairwise_lt_range'
  · intro number
    simp only [List.mem_map, List.mem_filter, Prod.exists, exists_eq_right, isStray_iff,
      List.mk_mem_zipIdx_iff_le_and_getElem?_sub, List.getElem?_tail, StrayAt]
    -- the lines behind the first are numbered from two on, so a number is one more than its place
    constructor
    · rintro ⟨line, ⟨hle, hat⟩, hstray⟩
      refine ⟨hle, line, ?_, hstray⟩
      rwa [show number - 1 = number - 2 + 1 by omega]
    · rintro ⟨hlt, line, hat, hstray⟩
      refine ⟨line, ⟨hlt, ?_⟩, hstray⟩
      rwa [show number - 2 + 1 = number - 1 by omega]
  · rw [strayLines, List.map_map]
    rfl

/-! ## The verdict -/

/-- What reading makes of a text that has no blanks at its ends. -/
inductive Verdict (t : List Char) : Except (List BlockFault) (Option Comment) → Prop
  | foreign (h : Foreign t) : Verdict t (.ok none)
  | unterminated (h : ¬ Foreign t) (hend : ¬ closing <:+ behind t) :
      Verdict t (.error [.unterminated])
  | stray {inner : List Char} {numbers : List Nat} (h : Encloses t inner)
      (hlists : ListsStray (lines inner) numbers) (hne : numbers ≠ []) :
      Verdict t (.error (numbers.map .strayLine))
  | sound {inner : List Char} (h : Encloses t inner)
      (hnone : ∀ number, ¬ StrayAt (lines inner) number) :
      Verdict t (.ok (some (Comment.ofLines (contents (lines inner)))))

theorem read_of_encloses {raw : String} {inner : List Char} {numbers : List Nat}
    (h : Encloses (trim raw.toList) inner) (hlists : ListsStray (lines inner) numbers) :
    read raw = if numbers = [] then .ok (some (Comment.ofLines (contents (lines inner))))
      else .error (numbers.map .strayLine) := by
  obtain ⟨numbers', hlists', hfaults⟩ := exists_strayLines_eq (lines inner)
  obtain rfl := hlists.eq hlists'
  rw [read, frame_eq_inner h]
  simp only [hfaults]
  cases numbers with
  | nil => rfl
  | cons number rest => rfl

theorem listsStray_nil_iff (ls : List (List Char)) :
    ListsStray ls [] ↔ ∀ number, ¬ StrayAt ls number := by
  constructor
  · intro h number hat
    cases (h.mem_iff number).mpr hat
  · intro h
    exact ⟨List.Pairwise.nil, fun number => iff_of_false List.not_mem_nil (h number)⟩

/-- Reading gives what the rules say and nothing else. -/
theorem read_eq_iff_verdict (raw : String) (result : Except (List BlockFault) (Option Comment)) :
    read raw = result ↔ Verdict (trim raw.toList) result := by
  constructor
  · rintro rfl
    by_cases hforeign : Foreign (trim raw.toList)
    · rw [read, frame_eq_foreign hforeign]
      exact .foreign hforeign
    · by_cases hend : closing <:+ behind (trim raw.toList)
      · obtain ⟨inner, hinner⟩ := hend
        have hencloses : Encloses (trim raw.toList) inner := ⟨hforeign, hinner.symm⟩
        obtain ⟨numbers, hlists, _⟩ := exists_strayLines_eq (lines inner)
        rw [read_of_encloses hencloses hlists]
        split
        · next hnil => exact .sound hencloses ((listsStray_nil_iff _).mp (hnil ▸ hlists))
        · next hne => exact .stray hencloses hlists hne
      · rw [read, frame_eq_unterminated hforeign hend]
        exact .unterminated hforeign hend
  · intro h
    cases h with
    | foreign h => rw [read, frame_eq_foreign h]
    | unterminated h hend => rw [read, frame_eq_unterminated h hend]
    | stray h hlists hne => rw [read_of_encloses h hlists, if_neg hne]
    | sound h hnone => rw [read_of_encloses h ((listsStray_nil_iff _).mpr hnone), if_pos rfl]

/-- Under the strict policy the rules say exactly what reading gives. The lenient policy never
fails: it accepts what the strict one accepts, and finds no documentation in all that is refused.
Each fault is reported by one error, with a code for its sort and the number of a stray line. -/
theorem readUnder_iff_verdict (raw : String) :
    (∀ result, readUnder .strict raw = result ↔ Verdict (trim raw.toList) result) ∧
      (readUnder .lenient raw = .ok
        (match readUnder .strict raw with
          | .ok found => found
          | .error _ => none)) ∧
      (BlockFault.unterminated.diagnostic.severity = .error ∧
        BlockFault.unterminated.diagnostic.code = some .e301) ∧
      ∀ number, (BlockFault.strayLine number).diagnostic.severity = .error ∧
        (BlockFault.strayLine number).diagnostic.code = some .e300 ∧
        (BlockFault.strayLine number).diagnostic.message =
          "documentation line " ++ toString number ++ " does not start with `*`" := by
  have hstrict : readUnder .strict raw = read raw := rfl
  refine ⟨?_, ?_, ⟨rfl, rfl⟩, fun number => ⟨rfl, rfl, rfl⟩⟩
  · intro result
    rw [hstrict]
    exact read_eq_iff_verdict raw result
  · rw [hstrict]
    cases hread : read raw with
    | ok found => exact readUnder_of_read hread .lenient
    | error faults => simp only [readUnder, hread]

example : readUnder .strict " /** a\r\n b\n\n * c\n\td */" =
    .error [.strayLine 2, .strayLine 5] := by
  decide +kernel

end Block

end ClassDiagram
