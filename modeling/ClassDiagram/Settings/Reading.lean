import ClassDiagram.Settings
import ClassDiagram.Toml.Document

/-!
# Settings from a file

The settings stand in three sections of a TOML document. A section is a table with the settings
by name, or an array with the settings by position. What is not there has its default. Keys that
mean nothing are passed over, so long as their values are sound; a setting with a value of the
wrong type is a fault.
-/

namespace ClassDiagram

namespace Settings

open Toml

/-- Whether the values under keys that mean nothing are sound. -/
def othersSound (names : List String) (entries : Entries) : Bool :=
  entries.all fun e => names.contains e.1 || e.2.isSound

/-- The values of a section's settings. A date has no settings in it. -/
def sectionValues? (names : List String) : Option Value → Option (List (Option Value))
  | none => some (names.map fun _ => none)
  | some (.table _ entries) =>
    if othersSound names entries then
      some (names.map fun name => entries.lookup name)
    else none
  | some (.array _ items) => some ((List.range names.length).map fun i => items[i]?)
  | some (.datetime _) => some (names.map fun _ => none)
  | some _ => none

/-- A truth value, or the default. -/
def bool? (default : Bool) : Option Value → Option Bool
  | none => some default
  | some (.boolean b) => some b
  | some _ => none

/-- An integer of 64 bits, or the default. -/
def int64? (default : Int) : Option Value → Option Int
  | none => some default
  | some (.integer n?) => n?.filter (fitsSigned 64)
  | some _ => none

def readAssociation? (section? : Option Value) : Option AssociationSettings := do
  match ← sectionValues? ["merge", "max_roles"] section? with
  | [merge, maxRoles] => some { merge := ← bool? true merge, maxRoles := ← int64? (-1) maxRoles }
  | _ => none

/-- Whether accessors are added, and whether importance is heeded. -/
def readPasses? (section? : Option Value) : Option (Bool × Bool) := do
  match ← sectionValues? ["getters", "importance"] section? with
  | [getters, importance] => some (← bool? false getters, ← bool? true importance)
  | _ => none

/-- Whether documentation is read strictly. -/
def readDocSection? (section? : Option Value) : Option Bool := do
  match ← sectionValues? ["strict"] section? with
  | [strict] => bool? false strict
  | _ => none

def sectionNames : List String := ["association", "passes", "doc"]

/-- The settings in the entries of a document. -/
def ofEntries? (entries : Entries) : Option Settings := do
  if othersSound sectionNames entries then
    let association ← readAssociation? (entries.lookup "association")
    let (getters, importance) ← readPasses? (entries.lookup "passes")
    let strict ← readDocSection? (entries.lookup "doc")
    some { association, getters, importance, strict }
  else none

/-- The settings in the text of a file. -/
def ofText? (text : String) : Option Settings :=
  (document? text).bind ofEntries?

end Settings

end ClassDiagram
