import ClassDiagram.Failure
import ClassDiagram.FileTree
import ClassDiagram.Settings.Reading

/-!
# Where settings come from

A path that the user names is the only one that counts. Otherwise the first file that exists is
read: that of the project, then that of the user. Without any file the defaults hold. A file that
exists but cannot be used is a failure, and never a reason to look further.
-/

namespace ClassDiagram

/-- The variable that says where a user's settings are kept. -/
inductive ConfigHome
  | unset
  | relative
  | absolute (path : List String)

/-- What the search for settings depends on: the files, the user's home, and the variable. -/
structure Surroundings where
  files : FileTree
  home : List String
  configHome : ConfigHome

namespace Surroundings

/-- The settings of the project. -/
def projectPath : List String := ["classmap", "config.toml"]

/-- The settings of the user. A variable with a relative path does not count. -/
def userPath (s : Surroundings) : List String :=
  let base :=
    match s.configHome with
    | .absolute path => path
    | .unset | .relative => s.home ++ [".config"]
  base ++ projectPath

end Surroundings

namespace Settings

/-- Read the settings in what stands at a path. -/
def ofNode : FileNode → Except Failure Settings
  | .directory => .error (.read .isDirectory)
  | .file bytes =>
    match String.fromUTF8? bytes with
    | none => .error (.read .notText)
    | some text =>
      match ofText? text with
      | some settings => .ok settings
      | none => .error .malformedSettings

/-- Find and read the settings. -/
def load (s : Surroundings) (explicit : Option String) : Except Failure Settings :=
  match explicit with
  | some path =>
    match s.files.find? path with
    | some node => ofNode node
    | none => .error (.missingSettings path)
  | none =>
    match (s.files.node? Surroundings.projectPath).or (s.files.node? s.userPath) with
    | some node => ofNode node
    | none => .ok {}

end Settings

end ClassDiagram
