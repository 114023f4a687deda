import ClassDiagram.Doc.Comment
import ClassDiagram.TypeExpr

/-!
# Members

The attributes, methods, constructors and constants of an entity. The signature of a member is
what tells it from the others of its sort when two definitions are combined: the types of the
arguments belong to it, their names do not.
-/

namespace ClassDiagram

/-- Who can use a member. -/
inductive Visibility
  | publicAccess
  | privateAccess
  | protectedAccess
  | packageAccess
deriving DecidableEq, Inhabited

namespace Visibility

/-- The mark that is drawn before a member. -/
def mark : Visibility → Char
  | publicAccess => '+'
  | privateAccess => '-'
  | protectedAccess => '#'
  | packageAccess => '~'

/-- The visibility that a modifier stands for. -/
def ofModifier? (modifier : String) : Option Visibility :=
  if modifier = "public" then some publicAccess
  else if modifier = "private" then some privateAccess
  else if modifier = "protected" then some protectedAccess
  else none

/-- The first access modifier decides; without one a member belongs to its package. -/
def ofModifiers (modifiers : List String) : Visibility :=
  (modifiers.findSome? ofModifier?).getD packageAccess

end Visibility

structure Argument where
  name : String
  type : TypeExpr
deriving DecidableEq, Inhabited

/-- The four sorts of members. -/
inductive MemberSort
  | attr
  | method
  | constructor
  | constant
deriving DecidableEq, Inhabited

def MemberSort.label : MemberSort → String
  | attr => "attribute"
  | method => "method"
  | constructor => "constructor"
  | constant => "constant"

/-- The part of a member that depends on its sort. -/
inductive MemberKind
  | attr (type : TypeExpr)
  | method (args : List Argument) (result : TypeExpr) (isAbstract : Bool)
  | constructor (args : List Argument)
  | constant
deriving DecidableEq, Inhabited

def MemberKind.sort : MemberKind → MemberSort
  | attr _ => .attr
  | method _ _ _ => .method
  | constructor _ => .constructor
  | constant => .constant

/-- A member of an entity. -/
structure Member where
  name : String
  visibility : Visibility
  kind : MemberKind
  isStatic : Bool := false
  important : Bool := false
  stereotypes : List String := []
  doc : Comment := {}
deriving DecidableEq, Inhabited

namespace Member

def attr (name : String) (visibility : Visibility) (type : TypeExpr) : Member :=
  { name, visibility, kind := .attr type }

def method (name : String) (visibility : Visibility) (args : List Argument) (result : TypeExpr) :
    Member :=
  { name, visibility, kind := .method args result false }

def constructor (name : String) (visibility : Visibility) (args : List Argument) : Member :=
  { name, visibility, kind := .constructor args }

/-- A constant is public and static. -/
def constant (name : String) : Member :=
  { name, visibility := .publicAccess, kind := .constant, isStatic := true }

def sort (m : Member) : MemberSort :=
  m.kind.sort

/-- Make a method abstract or not; the other sorts are never abstract. -/
def setAbstract (m : Member) (isAbstract : Bool) : Member :=
  match m.kind with
  | .method args result _ => { m with kind := .method args result isAbstract }
  | .attr _ | .constructor _ | .constant => m

/-- The type of an attribute. -/
def type? (m : Member) : Option TypeExpr :=
  match m.kind with
  | .attr type => some type
  | .method .. | .constructor _ | .constant => none

/-- A name with the types of its arguments in parentheses. -/
def callSignature (name : String) (args : List Argument) : String :=
  name ++ "(" ++ ", ".intercalate (args.map (·.type.render)) ++ ")"

/-- What two definitions of the same member agree on. -/
def signature (m : Member) : String :=
  match m.kind with
  | .attr _ | .constant => m.name
  | .method args _ _ | .constructor args => callSignature m.name args

end Member

end ClassDiagram
