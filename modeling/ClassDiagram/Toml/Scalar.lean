import ClassDiagram.Text.Pieces
import ClassDiagram.Toml.Quoted
import ClassDiagram.Toml.Value

/-!
# Numbers, truth values and dates

The values that are written without quotes. Such a value runs on over blanks, as a date does to its
time, until a mark, a string or the end of the line. How it begins and which marks it holds decide
what kind of value it is. Dates and times have to exist in the calendar and on the clock, where a
minute can have sixty-one seconds, and decimals are checked to their end. An integer is checked
less closely: behind its first underscore it may hold more than digits, tabs among them, and it has
a value only if it does not.
-/

namespace ClassDiagram.Toml

open Text

/-! ## Numbers -/

/-- The value of digits, the most significant first; there has to be one. -/
def natural? (base : Nat) (digits : List Char) : Option Nat :=
  if digits.isEmpty then none
  else
    digits.foldlM (fun value c => do
      let digit ← hexDigit? c
      if digit < base then some (base * value + digit) else none) 0

/-- A sign, if there is one, and what follows it. -/
def splitSign : List Char → Bool × List Char
  | '-' :: rest => (true, rest)
  | '+' :: rest => (false, rest)
  | s => (false, s)

def withSign (negative : Bool) (n : Nat) : Int :=
  if negative then -n else n

/-- Join the parts between underscores, each of which has to stand between digits. -/
def ungroup? (digit : Char → Bool) (s : List Char) : Option (List Char) :=
  let parts := pieces (· == '_') s
  if parts.tail.all (·.head?.any digit) && parts.dropLast.all (·.getLast?.any digit) then
    some parts.flatten
  else none

def isHexDigit (c : Char) : Bool :=
  (hexDigit? c).isSome

/-- An integer with a base of its own. -/
def basedInteger? (base : Nat) (s : List Char) : Option Value :=
  if s.all fun c => c == '_' || (hexDigit? c).any (· < base) then
    (ungroup? isHexDigit s).map fun digits => .integer ((natural? base digits).map Int.ofNat)
  else none

/-- The value of decimal digits behind an optional sign. -/
def signedValue? (s : List Char) : Option Int :=
  let (negative, digits) := splitSign s
  (natural? 10 digits).map (withSign negative)

/-- The marks of a decimal. -/
def isDecimalMark (c : Char) : Bool :=
  c == '.' || c == 'e' || c == 'E'

/-- A decimal integer: digits without a needless zero in front, or digits with underscores. -/
def decimalInteger? (s : List Char) : Option Value :=
  let (_, body) := splitSign s
  let rest := body.dropWhile Char.isDigit
  if body = ['0'] then some (.integer (some 0))
  else if body.isEmpty ∨ body.head? = some '0' then none
  else if rest.isEmpty ∨ (rest.head? = some '_' ∧ !rest.any isDecimalMark) then
    (ungroup? isHexDigit s).map fun digits => .integer (signedValue? digits)
  else none

def integer? : List Char → Option Value
  | '0' :: 'x' :: digits => basedInteger? 16 digits
  | '0' :: 'o' :: digits => basedInteger? 8 digits
  | '0' :: 'b' :: digits => basedInteger? 2 digits
  | s => decimalInteger? s

/-- A run of digits and underscores at the front of a text: its digits, of which there is at least
one, and what follows. -/
def digitRun? (s : List Char) : Option (List Char × List Char) :=
  let inRun := fun (c : Char) => c.isDigit || c == '_'
  let digits := (s.takeWhile inRun).filter Char.isDigit
  if digits.isEmpty then none else some (digits, s.dropWhile inRun)

/-- The digits behind a point, if there is one, and what follows. -/
def fraction? : List Char → Option (List Char × List Char)
  | '.' :: rest => digitRun? rest
  | s => some ([], s)

/-- The exponent at the end of a decimal, which is zero if it is not written. -/
def exponent? : List Char → Option Int
  | [] => some 0
  | mark :: rest => do
    if mark = 'e' ∨ mark = 'E' then
      let (negative, digits) := splitSign rest
      let (digits, behind) ← digitRun? digits
      if behind.isEmpty then (natural? 10 digits).map (withSign negative) else none
    else none

/-- A number with a fraction, an exponent or both. -/
def decimal? (s : List Char) : Option Value := do
  let _ ← ungroup? Char.isDigit s
  let (negative, body) := splitSign s
  let (whole, rest) ← digitRun? body
  if body.head? = some '0' ∧ whole.length ≠ 1 then none
  else
    let (fraction, rest) ← fraction? rest
    let power ← exponent? rest
    let digits ← natural? 10 (whole ++ fraction)
    some (.decimal (withSign negative digits) (power - fraction.length))

/-- Infinity, or what is no number. -/
def special? (s : List Char) : Option Value :=
  let (negative, body) := splitSign s
  if body = ['i', 'n', 'f'] then some (.infinity negative)
  else if body = ['n', 'a', 'n'] then some .notANumber
  else none

/-! ## Dates and times -/

/-- A number of exactly so many digits, and what follows it. -/
def fixed? (width : Nat) (s : List Char) : Option (Nat × List Char) := do
  let digits := s.take width
  if digits.length = width ∧ digits.all Char.isDigit then
    some (← natural? 10 digits, s.drop width)
  else none

/-- What follows a certain character. -/
def expect? (c : Char) : List Char → Option (List Char)
  | d :: rest => if d = c then some rest else none
  | [] => none

def isLeapYear (year : Nat) : Bool :=
  year % 4 == 0 && (year % 100 != 0 || year % 400 == 0)

def monthLength (year month : Nat) : Nat :=
  if month = 2 then if isLeapYear year then 29 else 28
  else if month = 4 ∨ month = 6 ∨ month = 9 ∨ month = 11 then 30
  else 31

/-- What follows a date of the calendar. -/
def afterDate? (s : List Char) : Option (List Char) := do
  let (year, s) ← fixed? 4 s
  let (month, s) ← fixed? 2 (← expect? '-' s)
  let (day, s) ← fixed? 2 (← expect? '-' s)
  if 1 ≤ month ∧ month ≤ 12 ∧ 1 ≤ day ∧ day ≤ monthLength year month then some s else none

/-- What follows a fraction of a second, which has at least one digit. -/
def afterFraction? : List Char → Option (List Char)
  | '.' :: rest =>
    if (rest.takeWhile Char.isDigit).isEmpty then none else some (rest.dropWhile Char.isDigit)
  | s => some s

/-- What follows the seconds of a time, if it has any. -/
def afterSeconds? : List Char → Option (List Char)
  | ':' :: rest => do
    let (second, s) ← fixed? 2 rest
    if second ≤ 60 then afterFraction? s else none
  | s => some s

/-- What follows a time of day. -/
def afterTime? (s : List Char) : Option (List Char) := do
  let (hour, s) ← fixed? 2 s
  let (minute, s) ← fixed? 2 (← expect? ':' s)
  if hour ≤ 23 ∧ minute ≤ 59 then afterSeconds? s else none

/-- Whether a text is a distance from universal time, of less than a day. -/
def isOffset : List Char → Bool
  | [] => true
  | ['Z'] | ['z'] => true
  | c :: rest =>
    (c == '+' || c == '-') &&
      match (do
        let (hour, s) ← fixed? 2 rest
        let (minute, s) ← fixed? 2 (← expect? ':' s)
        some (hour, minute, s) : Option (Nat × Nat × List Char)) with
      | some (hour, minute, s) => s.isEmpty && hour ≤ 23 && minute ≤ 59
      | none => false

/-- Whether a text is a date, a time, or both. -/
def isDatetime (s : List Char) : Bool :=
  match afterDate? s with
  | some [] => true
  | some (c :: rest) => (c == 'T' || c == 't' || c == ' ') && (afterTime? rest).any isOffset
  | none => afterTime? s = some []

/-! ## Words -/

/-- Blanks, line breaks and the marks around values, which end a word. -/
def wordEnds : List Char :=
  ['=', ',', '[', ']', '\x7b', '\x7d', ' ', '\t', '#', '\r', '\n']

/-- All other characters belong to words. -/
def isWordChar (c : Char) : Bool :=
  !wordEnds.contains c

/-- A word does not begin with a point, or with the quotes that begin a string. -/
def startsWord (c : Char) : Bool :=
  isWordChar c && c != '.' && c != '\x22' && c != '\x27'

/-- The words at the front of a text and the blanks between them, and what follows. -/
def splitWords : List Char → List Char × List Char
  | [] => ([], [])
  | c :: rest =>
    if isWordChar c || (isGap c && (rest.dropWhile isGap).head?.any startsWord) then
      let (words, behind) := splitWords rest
      (c :: words, behind)
    else ([], c :: rest)

/-- The value that words stand for. Where there is a space between them, they are a date and a
time. -/
def ofWords? (s : List Char) : Option Value :=
  if s = ['t', 'r', 'u', 'e'] then some (.boolean true)
  else if s = ['f', 'a', 'l', 's', 'e'] then some (.boolean false)
  else if isDatetime s then some (.datetime (String.ofList s))
  else if s.contains ' ' then none
  else
    (special? s).or ((integer? s).or (decimal? s))

end ClassDiagram.Toml
