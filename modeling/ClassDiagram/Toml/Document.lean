import ClassDiagram.Toml.Scalar

/-!
# TOML documents

A document is a sequence of lines: a key with its value, the header of a table, the header of the
next table of an array, or nothing but a comment. Reading a document gives its table, and nothing
where it breaks a rule of the language. Arrays and tables in braces can be nested eighty deep, and
a key has at most eighty parts. Line breaks and comments may stand between any two parts of a table
in braces, but not inside a key.

`document?` is all that is used of the reader from outside that these modules stand for.
-/

namespace ClassDiagram.Toml

open Text

/-- A step of reading: it takes a part of the text, or it fails. -/
abbrev Step := StateT (List Char) Option

/-- Turn a function on texts into a step. -/
def Step.ofRest {α : Type} (f : List Char → Option (α × List Char)) : Step α := f

/-- Take the next character if it is a certain one. -/
def eat (c : Char) : Step Bool := fun s =>
  match s with
  | d :: rest => if d = c then some (true, rest) else some (false, s)
  | [] => some (false, [])

/-- The next character has to be a certain one. -/
def need (c : Char) : Step Unit := fun s =>
  (expect? c s).map fun rest => ((), rest)

def skipGaps : Step Unit := fun s =>
  some ((), s.dropWhile isGap)

/-- Skip blanks, line breaks and comments. -/
def skipLines (inComment : Bool) : List Char → Option (List Char)
  | [] => some []
  | c :: rest =>
    if c = '\n' then skipLines false rest
    else if c = '\r' ∧ rest.head? = some '\n' then skipLines inComment rest
    else if inComment then if isText c then skipLines true rest else none
    else if isGap c then skipLines false rest
    else if c = '#' then skipLines true rest
    else some (c :: rest)

def skipTrivia : Step Unit := fun s =>
  (skipLines false s).map fun rest => ((), rest)

/-- A line break, or the end of the text. -/
def lineBreak? : List Char → Option (List Char)
  | [] => some []
  | '\n' :: rest => some rest
  | '\r' :: '\n' :: rest => some rest
  | _ => none

/-- The end of a line, with or without a comment. -/
def endLine : Step Unit := fun s =>
  let rest :=
    match s.dropWhile isGap with
    | '#' :: comment => lineBreak? (comment.dropWhile isText)
    | other => lineBreak? other
  rest.map fun rest => ((), rest)

/-! ## Keys -/

def isBareKeyChar (c : Char) : Bool :=
  c.isAlphanum || c == '-' || c == '_'

/-- A key without dots, bare or quoted. -/
def simpleKey : Step String := fun s =>
  match quotedLine? s with
  | some (content, rest) => some (String.ofList content, rest)
  | none =>
    let bare := s.takeWhile isBareKeyChar
    if bare.isEmpty then none else some (String.ofList bare, s.dropWhile isBareKeyChar)

/-- The parts of a key behind its first dot. -/
def keyParts : Nat → Step (List String)
  | 0 => failure
  | fuel + 1 => do
    skipGaps
    let part ← simpleKey
    skipGaps
    if ← eat '.' then return part :: (← keyParts fuel) else return [part]

/-- The deepest nesting of values, and the most parts of a key. -/
def maxDepth : Nat := 80

/-- A key: the path to a table, and the last part. -/
def key : Step (List String × String) := do
  let parts ← keyParts ((← get).length + 1)
  match parts.getLast? with
  | some last => if parts.length ≤ maxDepth then return (parts.dropLast, last) else failure
  | none => failure

/-! ## Values -/

/-- Items with commas between them, up to a closing bracket. A comma may follow the last one. -/
def commaList {α : Type} (close : Char) (item : Step α) : Nat → Step (List α)
  | 0 => failure
  | fuel + 1 => do
    skipTrivia
    if ← eat close then return []
    let first ← item
    skipTrivia
    if ← eat ',' then return first :: (← commaList close item fuel)
    need close
    return [first]

/-- A key, an equals sign and a value, with the step that skips what may stand between them. -/
def assignment (skip : Step Unit) (value : Step Value) :
    Step ((List String × String) × Value) := do
  let k ← key
  skip
  need '='
  skip
  return (k, ← value)

/-- The table with the given keys and values, if they do not contradict each other. -/
def inlineTable? (pairs : List ((List String × String) × Value)) : Option Value :=
  (pairs.foldlM (fun entries p => setValue p.1.1 p.1.2 p.2 .inline entries) []).map
    (.table .inline)

/-- A value, with the step that reads the values inside it, if there may be any. -/
def valueWith (inner : Option (Step Value)) : Step Value := do
  match (← get).head? with
  | some '[' =>
    let item ← (inner : Option (Step Value))
    need '['
    return .array false (← commaList ']' item ((← get).length + 1))
  | some '\x7b' =>
    let item ← (inner : Option (Step Value))
    need '\x7b'
    let pairs ← commaList '\x7d' (assignment skipTrivia item) ((← get).length + 1)
    (inlineTable? pairs : Option Value)
  | some '\x22' | some '\x27' => return .string (String.ofList (← Step.ofRest quoted?))
  | _ =>
    let words ← Step.ofRest fun s => some (splitWords s)
    (ofWords? words : Option Value)

/-- A value in which arrays and tables are nested at most so deep. -/
def value : Nat → Step Value
  | 0 => valueWith none
  | depth + 1 => valueWith (some (value depth))

/-! ## Documents -/

/-- What a line says. -/
inductive Line
  | keyValue (path : List String) (key : String) (value : Value)
  | header (path : List String) (key : String)
  | elementHeader (path : List String) (key : String)

/-- A line that is not empty, up to its end. -/
def Line.read : Step Line := do
  if ← eat '[' then
    if ← eat '[' then
      let (path, last) ← key
      need ']'
      need ']'
      return .elementHeader path last
    else
      let (path, last) ← key
      need ']'
      return .header path last
  else
    let ((path, last), v) ← assignment skipGaps (value maxDepth)
    return .keyValue path last v

/-- The lines of a text that are not empty. -/
def Line.readAll : Nat → Step (List Line)
  | 0 => failure
  | fuel + 1 => do
    skipTrivia
    if (← get).isEmpty then return []
    let first ← Line.read
    endLine
    return first :: (← readAll fuel)

/-- The entries of the document so far, and the path of the table that is open. -/
structure Progress where
  entries : Entries := []
  current : List String := []

/-- Take one line into account. -/
def Progress.step (p : Progress) : Line → Option Progress
  | .keyValue path key value => do
    let entries ← descend false (setValue path key value) p.current .headed p.entries
    some { p with entries := entries }
  | .header path key => do
    let entries ← openTable path key .headed p.entries
    some { entries := entries, current := path ++ [key] }
  | .elementHeader path key => do
    let entries ← openElement path key .headed p.entries
    some { entries := entries, current := path ++ [key] }

/-- The text behind a byte order mark, if there is one. -/
def dropByteOrderMark : List Char → List Char
  | '\ufeff' :: rest => rest
  | s => s

/-- The entries of a document. -/
def document? (text : String) : Option Entries := do
  let s := dropByteOrderMark text.toList
  let (lines, _) ← Line.readAll (s.length + 1) s
  let p ← lines.foldlM Progress.step {}
  some p.entries

end ClassDiagram.Toml
