/-!
# Values of a settings file

A TOML file is one table of values under keys. How a table was opened decides who may still add
to it: a table written in braces is closed, a table with a header of its own takes no more keys
from elsewhere, a table that only stands on the path of a header may get that header later or be
taken over by a dotted key, and a table that stands on the path of a dotted key is open to further
dotted keys but gets no header.

The language is not this library's own. The modules `Toml` stand for a reader from outside, with
what it accepts and refuses and without the wording of its faults. Only `Settings.Reading` uses
them, and it depends on no more than the entries of a document and whether their numbers are sound.
-/

namespace ClassDiagram.Toml

/-- How a table was opened. -/
inductive TableForm
  | inline
  | headed
  | implied
  | dotted
deriving DecidableEq, Inhabited

/-- A value. What is written as an integer may turn out to have no value; a decimal is its mantissa
times a power of ten; `ofHeaders` says that an array was made by headers and not written in
brackets. -/
inductive Value
  | string (text : String)
  | integer (n? : Option Int)
  | decimal (mantissa exponent : Int)
  | infinity (negative : Bool)
  | notANumber
  | boolean (b : Bool)
  | datetime (text : String)
  | array (ofHeaders : Bool) (items : List Value)
  | table (form : TableForm) (entries : List (String × Value))
deriving Inhabited

abbrev Entries := List (String × Value)

/-- Put a value in the place of the one under a key. -/
def replace (key : String) (value : Value) (entries : Entries) : Entries :=
  entries.map fun e => if e.1 = key then (key, value) else e

/-- A change of a table's entries that depends on how the table was opened. -/
abbrev Change := TableForm → Entries → Option Entries

/-- Apply a change inside a value that a path leads through. A path leads through the last element
of an array that headers made. A dotted key does not lead into a table with a header, and it takes
over the other tables on its way. -/
def Value.enter? (dotted : Bool) (change : Change) : Value → Option Value
  | .table form entries =>
    if form = .inline ∨ (dotted = true ∧ form = .headed) then none
    else
      let form := if dotted then .dotted else form
      (change form entries).map (.table form)
  | .array true items =>
    match items.getLast? with
    | some (.table form entries) =>
      (change form entries).map fun entries => .array true (items.dropLast ++ [.table form entries])
    | _ => none
  | _ => none

/-- Apply a change at the end of a path. Tables that are not there are made on the way. -/
def descend (dotted : Bool) (change : Change) : List String → Change
  | [], form, entries => change form entries
  | key :: rest, _, entries =>
    match entries.lookup key with
    | none =>
      let form := if dotted then TableForm.dotted else .implied
      (descend dotted change rest form []).map fun inner => entries ++ [(key, .table form inner)]
    | some value =>
      (value.enter? dotted (descend dotted change rest)).map fun value => replace key value entries

/-- Add a value under a dotted key. The table that gets it is the current one for a key without
dots, and otherwise one that dotted keys have opened. -/
def setValue (path : List String) (key : String) (value : Value) : Change :=
  descend true (fun form entries =>
    if path ≠ [] ∧ form ≠ .dotted then none
    else if (entries.lookup key).isSome then none
    else some (entries ++ [(key, value)])) path

/-- Open what a header names: a fresh value where there is none, and otherwise what is there, if it
can still be opened. -/
def openEntry (fresh : Value) (reopen? : Value → Option Value) (path : List String)
    (key : String) : Change :=
  descend false (fun _ entries =>
    match entries.lookup key with
    | none => some (entries ++ [(key, fresh)])
    | some value => (reopen? value).map fun value => replace key value entries) path

/-- Open a table by a header. -/
def openTable : List String → String → Change :=
  openEntry (.table .headed []) fun
    | .table .implied inner => some (.table .headed inner)
    | _ => none

/-- Open the next table of an array by a header. -/
def openElement : List String → String → Change :=
  openEntry (.array true [.table .headed []]) fun
    | .array true items => some (.array true (items ++ [.table .headed []]))
    | _ => none

/-- A decimal that is too large for a double is at least half a step above the largest one. -/
def overflows (mantissa exponent : Int) : Bool :=
  let digits : Int := (Nat.toDigits 10 mantissa.natAbs).length
  if mantissa = 0 then false
  else if digits + exponent > 310 then true
  else if digits + exponent < 300 then false
  else
    let limit := Nat.pow 2 1024 - Nat.pow 2 970
    limit * Nat.pow 10 (-exponent).toNat ≤ mantissa.natAbs * Nat.pow 10 exponent.toNat

/-- The range of integers of so many bits that are written in two's complement. -/
def fitsSigned (bits : Nat) (n : Int) : Bool :=
  -(Nat.pow 2 (bits - 1) : Int) ≤ n && n < (Nat.pow 2 (bits - 1) : Int)

/-- An integer of at most 128 bits, signed or unsigned. -/
def fitsWideInteger (n : Int) : Bool :=
  fitsSigned 128 n || (0 ≤ n && n < (Nat.pow 2 128 : Int))

mutual

/-- Whether every number in a value has a machine representation. -/
def Value.isSound : Value → Bool
  | .integer n? => n?.any fitsWideInteger
  | .decimal mantissa exponent => !overflows mantissa exponent
  | .array _ items => areSound items
  | .table _ entries => entriesSound entries
  | .string _ | .infinity _ | .notANumber | .boolean _ | .datetime _ => true

def areSound : List Value → Bool
  | [] => true
  | value :: rest => value.isSound && areSound rest

def entriesSound : List (String × Value) → Bool
  | [] => true
  | (_, value) :: rest => value.isSound && entriesSound rest

end

end ClassDiagram.Toml
