import ClassDiagram.Diagram

/-!
# Package trees

The declared entities of a diagram by package. The root stands at the longest path that all
their packages begin with, and every other node one segment below its parent. A node keeps its
whole path, so the child for a segment is the one whose path ends in it.
-/

namespace ClassDiagram

/-- A package with what is declared in it and the packages below it, in order of arrival. -/
inductive Package
  | node (path : List String) (objects : List Ref) (packages : List Package)
deriving Inhabited

namespace Package

def path : Package → List String
  | node path _ _ => path

/-- The entities that are declared directly in a package. -/
def objects : Package → List Ref
  | node _ objects _ => objects

/-- The packages directly below a package. -/
def packages : Package → List Package
  | node _ _ packages => packages

/-- The path with points between the segments. -/
def name (p : Package) : String :=
  ".".intercalate p.path

/-- A package with nothing in it. -/
def empty (path : List String) : Package :=
  node path [] []

def isEmpty (p : Package) : Bool :=
  p.objects.isEmpty && p.packages.isEmpty

/-- The child package for a segment. -/
def child? (p : Package) (segment : String) : Option Package :=
  p.packages.find? (·.path = p.path ++ [segment])

/-- The package that a path below this one leads to. -/
def get? (p : Package) : List String → Option Package
  | [] => some p
  | segment :: rest => do (← p.child? segment).get? rest

/-- Change the package at a path in a list, or add a new one at the end. -/
def alter (path : List String) (f : Package → Package) : List Package → List Package
  | [] => [f (empty path)]
  | p :: rest => if p.path = path then f p :: rest else p :: alter path f rest

/-- Put an entity into the package at a path below this one; missing packages are made. -/
def place (ref : Ref) : List String → Package → Package
  | [], node path objects packages => node path (objects ++ [ref]) packages
  | segment :: rest, node path objects packages =>
    node path objects (alter (path ++ [segment]) (place ref rest) packages)

mutual

/-- All entities in a package and below it: its own first, then those of each child in turn. -/
def collect : Package → List Ref
  | node _ objects packages => objects ++ collectAll packages

/-- All entities in several packages and below them. -/
def collectAll : List Package → List Ref
  | [] => []
  | p :: rest => p.collect ++ collectAll rest

end

end Package

/-- The longest list that both begin with. -/
def commonStart : List String → List String → List String
  | a :: as, b :: bs => if a = b then a :: commonStart as bs else []
  | _, _ => []

namespace Diagram

/-- The longest path that the packages of all declared entities begin with. -/
def commonPackage (d : Diagram) : List String :=
  match d.declared.map (·.2.package) with
  | [] => []
  | first :: others => others.foldl commonStart first

/-- The tree of the declared entities. -/
def packageTree (d : Diagram) : Package :=
  let root := d.commonPackage
  d.declared.foldl (fun tree e => tree.place e.1 (e.2.package.drop root.length))
    (Package.empty root)

end Diagram

end ClassDiagram
