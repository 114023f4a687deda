import ClassDiagram.Text.Pieces

/-!
# File trees

The files below a directory, listed with their paths. Every directory on the way to a file exists.
Paths are followed part by part: each part but the last has to be a directory, a point stays where
it is and two points go up. The working directory stands in a directory right below the root. Of
what lies outside it no more is known than what every system has: a few names below the root.

The tree stands for the file system that a search for settings meets. Links, permissions and changes
while it is read are left out.
-/

namespace ClassDiagram

/-- What stands at a path. -/
inductive FileNode
  | file (bytes : ByteArray)
  | directory

structure FileTree where
  nodes : List (List String × FileNode) := []

namespace FileTree

/-- What stands at a path of plain names. -/
def node? (t : FileTree) (path : List String) : Option FileNode :=
  match t.nodes.lookup path with
  | some node => some node
  | none =>
    if path.isEmpty || t.nodes.any (fun n => path.isPrefixOf n.1) then some .directory else none

/-- What every system has below its root: some directories, and the device whose content is
empty. -/
def ofSystem : FileTree :=
  { nodes := (["dev", "null"], .file .empty) ::
      ["etc", "proc", "tmp", "usr", "var"].map fun name => ([name], .directory) }

/-- A place that a path leads to: below the working directory, in the directory above it, or below
the root. -/
inductive Place
  | below (path : List String)
  | above
  | belowRoot (path : List String)

/-- What stands at a place. -/
def Place.node? (t : FileTree) : Place → Option FileNode
  | .below path => t.node? path
  | .above => some .directory
  | .belowRoot path => ofSystem.node? path

/-- The place one directory up. The root is its own parent. -/
def Place.parent : Place → Place
  | .below path => if path.isEmpty then .above else .below path.dropLast
  | .above => .belowRoot []
  | .belowRoot path => .belowRoot path.dropLast

/-- The place of a name in a directory, if that is known. -/
def Place.child? (name : String) : Place → Option Place
  | .below path => some (.below (path ++ [name]))
  | .above => none
  | .belowRoot path => some (.belowRoot (path ++ [name]))

/-- Take one part of a path. -/
def step (t : FileTree) (place : Place) (part : String) : Option Place :=
  match place.node? t with
  | some .directory =>
    if part = "" ∨ part = "." then some place
    else if part = ".." then some place.parent
    else (place.child? part).filter fun child => (child.node? t).isSome
  | _ => none

/-- The most bytes of a path. -/
def maxPathBytes : Nat := 4095

/-- The parts of a path given as text, which stand between strokes. -/
def parts (path : String) : List String :=
  (Text.pieces (· == '/') path.toList).map String.ofList

/-- What stands at a path given as text. The empty text is no path, nor is one that is too long. -/
def find? (t : FileTree) (path : String) : Option FileNode :=
  if path = "" ∨ maxPathBytes < path.utf8ByteSize then none
  else
    let start := if path.toList.head? = some '/' then Place.belowRoot [] else .below []
    ((parts path).foldlM t.step start).bind (Place.node? t)

end FileTree

end ClassDiagram
