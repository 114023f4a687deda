import ClassDiagram.Doc.Block

/-!
# Settings

What a user can choose: how associations are inferred, which further passes run, and how strict
the reading of documentation is.
-/

namespace ClassDiagram

/-- How associations are inferred. -/
structure AssociationSettings where
  /-- One relation for each target, with all roles on it, and not one for each role. -/
  merge : Bool := true
  /-- The most roles that are still written on a merged relation; negative for no limit. -/
  maxRoles : Int := -1
deriving DecidableEq, Inhabited

namespace AssociationSettings

/-- Whether so many roles are written on a merged relation. -/
def allowsRoles (s : AssociationSettings) (count : Nat) : Bool :=
  s.maxRoles < 0 || (count : Int) ≤ s.maxRoles

/-- The same on words of 64 bits. For the comparison the limit is cast to a word without a sign,
which keeps its value unless it is negative. -/
def wordAllowsRoles (limit : Int64) (count : UInt64) : Bool :=
  limit < 0 || count ≤ limit.toUInt64

theorem toNat_toUInt64_of_nonneg {limit : Int64} (h : 0 ≤ limit.toInt) :
    (limit.toUInt64.toNat : Int) = limit.toInt := by
  change 0 ≤ limit.toBitVec.toInt at h
  change (limit.toBitVec.toNat : Int) = limit.toBitVec.toInt
  have hlt : limit.toBitVec.toNat < 2 ^ 64 := limit.toBitVec.isLt
  rw [BitVec.toInt_eq_toNat_cond] at h ⊢
  by_cases hhalf : 2 * limit.toBitVec.toNat < 2 ^ 64
  · rw [if_pos hhalf]
  · rw [if_neg hhalf] at h
    omega

/-- Words are compared as the integers that they stand for: the cast is never seen where it would
change the limit. -/
theorem wordAllowsRoles_eq {s : AssociationSettings} {limit : Int64} (h : s.maxRoles = limit.toInt)
    (count : UInt64) : wordAllowsRoles limit count = s.allowsRoles count.toNat := by
  rw [wordAllowsRoles, allowsRoles, h, Bool.eq_iff_iff]
  simp only [Bool.or_eq_true, decide_eq_true_eq, Int64.lt_iff_toInt_lt, Int64.toInt_zero,
    UInt64.le_iff_toNat_le]
  by_cases hneg : limit.toInt < 0
  · simp [hneg]
  · have hcast := toNat_toUInt64_of_nonneg (Int.not_lt.mp hneg)
    omega

end AssociationSettings

structure Settings where
  association : AssociationSettings := {}
  /-- Give private attributes an accessor. -/
  getters : Bool := false
  /-- Heed `@important`. -/
  importance : Bool := true
  /-- Refuse malformed documentation blocks. -/
  strict : Bool := false
deriving DecidableEq, Inhabited

/-- The policy for documentation blocks. -/
def Settings.docPolicy (s : Settings) : DocPolicy :=
  if s.strict then .strict else .lenient

end ClassDiagram
