/-!
# Blank characters

White space in the sense of the Unicode property `White_Space`, which has 25 members, and the
two narrower blanks that the grammar of comments allows between the parts of a line. Trimming
removes the wide class from both ends of a text.
-/

namespace ClassDiagram.Text

/-- The characters with the Unicode property `White_Space`. -/
def isBlank (c : Char) : Bool :=
  let n := c.toNat
  (9 ≤ n && n ≤ 13) || n == 0x20 || n == 0x85 || n == 0xA0 || n == 0x1680 ||
    (0x2000 ≤ n && n ≤ 0x200A) || n == 0x2028 || n == 0x2029 || n == 0x202F ||
    n == 0x205F || n == 0x3000

/-- The blanks that may stand between the parts of one line: space and tab. -/
def isGap (c : Char) : Bool :=
  c == ' ' || c == '\t'

theorem isBlank_of_isGap {c : Char} (h : isGap c = true) : isBlank c = true := by
  simp only [isGap, Bool.or_eq_true, beq_iff_eq] at h
  rcases h with rfl | rfl <;> decide

def trimStart (s : List Char) : List Char :=
  s.dropWhile isBlank

def trimEnd (s : List Char) : List Char :=
  (s.reverse.dropWhile isBlank).reverse

/-- Both ends lose their blanks; those between other characters stay. -/
def trim (s : List Char) : List Char :=
  trimEnd (trimStart s)

end ClassDiagram.Text
