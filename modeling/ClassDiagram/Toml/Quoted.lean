import ClassDiagram.Text.Blank

/-!
# Quoted strings

Basic strings stand in double quotes and know escapes, literal strings stand in single quotes and
do not. Either kind can run over several lines between three quotes; up to two quotes right before
the closing three are content. Reading gives the content and what follows the closing quotes.
-/

namespace ClassDiagram.Toml

open Text

/-- The characters that may stand for themselves in a line: all but control characters, and the
tab. -/
def isText (c : Char) : Bool :=
  c == '\t' || (0x20 ≤ c.toNat && c.toNat ≠ 0x7F)

/-- The content quotes and the rest, where a text begins with the closing of a string. -/
def closing? (quote : Char) (multi : Bool) (s : List Char) : Option (List Char × List Char) :=
  let run := (s.takeWhile (· == quote)).length
  if multi then
    if run < 3 then none
    else some (List.replicate (min (run - 3) 2) quote, s.drop (min run 5))
  else if run = 0 then none
  else some ([], s.drop 1)

/-- Where the reading of a basic string stands: in its text, with or without a line break folded
just before; behind a backslash; among the digits of a code point; or between a backslash and the
line break that it folds. -/
inductive QuoteMode
  | text (folding : Bool)
  | escaped
  | code (left value : Nat)
  | lineEnd

/-- The character that a letter behind a backslash stands for. -/
def simpleEscape? (c : Char) : Option Char :=
  [('b', '\x08'), ('t', '\t'), ('n', '\n'), ('f', '\x0c'), ('r', '\r'), ('e', '\x1b'),
    ('\x22', '\x22'), ('\x5c', '\x5c')].lookup c

/-- How many digits of a code point follow a letter behind a backslash. -/
def codeLength? (c : Char) : Option Nat :=
  [('x', 2), ('u', 4), ('U', 8)].lookup c

def hexDigit? (c : Char) : Option Nat :=
  if '0' ≤ c ∧ c ≤ '9' then some (c.toNat - 0x30)
  else if 'a' ≤ c ∧ c ≤ 'f' then some (c.toNat - 0x61 + 10)
  else if 'A' ≤ c ∧ c ≤ 'F' then some (c.toNat - 0x41 + 10)
  else none

/-- The character with a code point, if that is a scalar value. -/
def scalar? (n : Nat) : Option Char :=
  if n < 0xD800 ∨ (0xE000 ≤ n ∧ n < 0x110000) then some (Char.ofNat n) else none

/-- Read the rest of a basic string. -/
def basicRest (multi : Bool) : QuoteMode → List Char → Option (List Char × List Char)
  | _, [] => none
  | .text folding, c :: rest =>
    match closing? '\x22' multi (c :: rest) with
    | some closed => some closed
    | none =>
      if c = '\x5c' then basicRest multi .escaped rest
      else if multi ∧ c = '\n' then do
        let (content, behind) ← basicRest multi (.text folding) rest
        some (if folding then content else '\n' :: content, behind)
      else if multi ∧ c = '\r' ∧ rest.head? = some '\n' then basicRest multi (.text folding) rest
      else if folding ∧ isGap c then basicRest multi (.text true) rest
      else if isText c then do
        let (content, behind) ← basicRest multi (.text false) rest
        some (c :: content, behind)
      else none
  | .escaped, c :: rest =>
    match simpleEscape? c, codeLength? c with
    | some e, _ => do
      let (content, behind) ← basicRest multi (.text false) rest
      some (e :: content, behind)
    | none, some digits => basicRest multi (.code digits 0) rest
    | none, none =>
      if multi ∧ c = '\n' then basicRest multi (.text true) rest
      else if multi ∧ (isGap c ∨ (c = '\r' ∧ rest.head? = some '\n')) then
        basicRest multi .lineEnd rest
      else none
  | .code left value, c :: rest => do
    let digit ← hexDigit? c
    if left ≤ 1 then
      let e ← scalar? (16 * value + digit)
      let (content, behind) ← basicRest multi (.text false) rest
      some (e :: content, behind)
    else basicRest multi (.code (left - 1) (16 * value + digit)) rest
  | .lineEnd, c :: rest =>
    if c = '\n' then basicRest multi (.text true) rest
    else if isGap c ∨ (c = '\r' ∧ rest.head? = some '\n') then basicRest multi .lineEnd rest
    else none

/-- Read the rest of a literal string. -/
def literalRest (multi : Bool) : List Char → Option (List Char × List Char)
  | [] => none
  | c :: rest =>
    match closing? '\x27' multi (c :: rest) with
    | some closed => some closed
    | none =>
      if multi ∧ c = '\r' ∧ rest.head? = some '\n' then literalRest multi rest
      else if isText c ∨ (multi ∧ c = '\n') then do
        let (content, behind) ← literalRest multi rest
        some (c :: content, behind)
      else none

/-- A line break right behind the opening of a string of several lines is no content. -/
def dropBreak : List Char → List Char
  | '\n' :: rest => rest
  | '\r' :: '\n' :: rest => rest
  | s => s

/-- Read a string of one line. -/
def quotedLine? : List Char → Option (List Char × List Char)
  | '\x22' :: rest => basicRest false (.text false) rest
  | '\x27' :: rest => literalRest false rest
  | _ => none

/-- Read a string of any form. -/
def quoted? : List Char → Option (List Char × List Char)
  | '\x22' :: '\x22' :: '\x22' :: rest => basicRest true (.text false) (dropBreak rest)
  | '\x27' :: '\x27' :: '\x27' :: rest => literalRest true (dropBreak rest)
  | s => quotedLine? s

end ClassDiagram.Toml
