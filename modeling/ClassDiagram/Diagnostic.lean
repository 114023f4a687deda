/-!
# Diagnostics

A diagnostic reports a problem that does not stop the work: how severe it is, what happened, and
where it helps, a code, the entity concerned and advice.
-/

namespace ClassDiagram

inductive Severity
  | error
  | warning
deriving DecidableEq, Inhabited

def Severity.label : Severity → String
  | error => "error"
  | warning => "warning"

/-- The problems with a code of their own: `1xx` for names, `2xx` for associations, `3xx` for
documentation. -/
inductive Code
  | e100
  | e200
  | e201
  | e300
  | e301
deriving DecidableEq

namespace Code

def label : Code → String
  | e100 => "E100"
  | e200 => "E200"
  | e201 => "E201"
  | e300 => "E300"
  | e301 => "E301"

def description : Code → String
  | e100 => "unresolved object"
  | e200 => "malformed association annotation"
  | e201 => "unknown association target"
  | e300 => "malformed documentation line"
  | e301 => "unterminated documentation block"

/-- Every code. -/
def all : List Code := [e100, e200, e201, e300, e301]

/-- The code with a label. -/
def ofLabel? (s : String) : Option Code :=
  all.find? (·.label = s)

theorem ofLabel?_label (c : Code) : ofLabel? c.label = some c := by
  cases c <;> decide

end Code

/-- A report about the model or its documentation. -/
structure Diagnostic where
  severity : Severity
  message : String
  code : Option Code := none
  object : Option String := none
  help : Option String := none
deriving DecidableEq, Inhabited

namespace Diagnostic

def isWarning (d : Diagnostic) : Bool :=
  d.severity == .warning

/-- One line: severity, code in brackets if there is one, message. -/
def render (d : Diagnostic) : String :=
  match d.code with
  | some code => d.severity.label ++ "[" ++ code.label ++ "]: " ++ d.message
  | none => d.severity.label ++ ": " ++ d.message

/-- The first of several diagnostics and how many more there are. -/
def summary : List Diagnostic → String
  | [] => ""
  | [d] => d.render
  | d :: more => s!"{d.render} (+{more.length} more)"

end Diagnostic

end ClassDiagram
