import ClassDiagram.Member

/-!
# Entities

The named boxes of a diagram: classes, enumerations, interfaces, and placeholders for names that
were mentioned before they were declared. Two definitions of one name are combined by `merge`:
a placeholder gives way to a declaration, and two declarations of one kind are united.
-/

namespace ClassDiagram

/-- The members of a class or an enumeration. -/
structure Body where
  isAbstract : Bool := false
  attributes : List Member := []
  constructors : List Member := []
  methods : List Member := []
deriving DecidableEq, Inhabited

namespace Body

/-- Every member of a body. -/
def members (b : Body) : List Member :=
  b.attributes ++ b.constructors ++ b.methods

/-- Apply a function to every member. -/
def mapMembers (f : Member → Member) (b : Body) : Body where
  isAbstract := b.isAbstract
  attributes := b.attributes.map f
  constructors := b.constructors.map f
  methods := b.methods.map f

/-- Add a member at the end of the list for its sort; constants have none. -/
def add? (b : Body) (m : Member) : Option Body :=
  match m.sort with
  | .attr => some { b with attributes := b.attributes ++ [m] }
  | .constructor => some { b with constructors := b.constructors ++ [m] }
  | .method => some { b with methods := b.methods ++ [m] }
  | .constant => none

end Body

/-- What an entity is. -/
inductive EntityKind
  | classKind
  | enumKind
  | interfaceKind
  | unresolved
deriving DecidableEq, Inhabited

def EntityKind.label : EntityKind → String
  | classKind => "class"
  | enumKind => "enum"
  | interfaceKind => "interface"
  | unresolved => "unresolved"

/-- What an entity holds; a placeholder holds nothing. -/
inductive Content
  | classContent (body : Body)
  | enumContent (body : Body) (constants : List Member)
  | interfaceContent (methods : List Member)
  | placeholder
deriving DecidableEq, Inhabited

/-- Why the model refuses a change. -/
inductive ModelError
  | duplicateObject (name : String)
  | memberNotAllowed (object member : String) (sort : MemberSort)
  | kindConflict (name : String) (existing incoming : EntityKind)
deriving DecidableEq

def ModelError.message : ModelError → String
  | duplicateObject name => s!"duplicate object `{name}`"
  | memberNotAllowed object member sort =>
    s!"object `{object}` cannot hold {sort.label} `{member}`"
  | kindConflict name existing incoming =>
    s!"object `{name}` is defined as {existing.label} and as {incoming.label}"

namespace Content

def kind : Content → EntityKind
  | classContent _ => .classKind
  | enumContent _ _ => .enumKind
  | interfaceContent _ => .interfaceKind
  | placeholder => .unresolved

/-- Content without members. -/
def ofKind : EntityKind → Content
  | .classKind => classContent {}
  | .enumKind => enumContent {} []
  | .interfaceKind => interfaceContent []
  | .unresolved => placeholder

/-- The body of a class or an enumeration. -/
def body? : Content → Option Body
  | classContent body | enumContent body _ => some body
  | interfaceContent _ | placeholder => none

def mapBody (f : Body → Body) : Content → Content
  | classContent body => classContent (f body)
  | enumContent body constants => enumContent (f body) constants
  | interfaceContent methods => interfaceContent methods
  | placeholder => placeholder

/-- Apply a function to every member. -/
def mapMembers (f : Member → Member) : Content → Content
  | classContent body => classContent (body.mapMembers f)
  | enumContent body constants => enumContent (body.mapMembers f) (constants.map f)
  | interfaceContent methods => interfaceContent (methods.map f)
  | placeholder => placeholder

/-- Every member: constants first, then attributes, constructors and methods. -/
def members : Content → List Member
  | classContent body => body.members
  | enumContent body constants => constants ++ body.members
  | interfaceContent methods => methods
  | placeholder => []

/-- Add a member at the end of the list for its sort, if there is such a list. -/
def add? : Content → Member → Option Content
  | classContent body, m => (body.add? m).map classContent
  | enumContent body constants, m =>
    if m.sort = .constant then some (enumContent body (constants ++ [m]))
    else (body.add? m).map (enumContent · constants)
  | interfaceContent methods, m =>
    if m.sort = .method then some (interfaceContent (methods ++ [m])) else none
  | placeholder, _ => none

end Content

/-- Append the members whose signature is not there yet, one after the other. -/
def uniteMembers (present incoming : List Member) : List Member :=
  incoming.foldl (fun ms m => if ms.any (·.signature = m.signature) then ms else ms ++ [m]) present

/-- Append the texts that are not there yet, one after the other. -/
def uniteTexts (present incoming : List String) : List String :=
  incoming.foldl (fun ts t => if t ∈ ts then ts else ts ++ [t]) present

/-- Both bodies' members; the result is abstract if either is. -/
def Body.unite (b other : Body) : Body where
  isAbstract := b.isAbstract || other.isAbstract
  attributes := uniteMembers b.attributes other.attributes
  constructors := uniteMembers b.constructors other.constructors
  methods := uniteMembers b.methods other.methods

/-- Both contents' members, if the two are of one kind. -/
def Content.unite? : Content → Content → Option Content
  | .classContent b, .classContent b' => some (.classContent (b.unite b'))
  | .enumContent b cs, .enumContent b' cs' =>
    some (.enumContent (b.unite b') (uniteMembers cs cs'))
  | .interfaceContent ms, .interfaceContent ms' => some (.interfaceContent (uniteMembers ms ms'))
  | _, _ => none

/-- A named box of the diagram. The package path goes from the outermost segment inwards. -/
structure Entity where
  name : String
  content : Content
  package : List String := []
  doc : Comment := {}
  stereotypes : List String := []
  generics : List TypeExpr := []
  important : Bool := false
deriving DecidableEq, Inhabited

namespace Entity

/-- An entity of a kind without members. -/
def ofKind (kind : EntityKind) (name : String) (package : List String) : Entity :=
  { name, package, content := Content.ofKind kind }

/-- The placeholder for a name. -/
def placeholder (name : String) : Entity :=
  ofKind .unresolved name []

def kind (e : Entity) : EntityKind :=
  e.content.kind

def isPlaceholder (e : Entity) : Bool :=
  e.kind == .unresolved

/-- Package and name with points between them. -/
def qualifiedName (e : Entity) : String :=
  ".".intercalate (e.package ++ [e.name])

/-- Whether a class or an enumeration is abstract; the others are neither. -/
def isAbstract? (e : Entity) : Option Bool :=
  e.content.body?.map (·.isAbstract)

def attributes (e : Entity) : List Member :=
  match e.content.body? with
  | some body => body.attributes
  | none => []

def constructors (e : Entity) : List Member :=
  match e.content.body? with
  | some body => body.constructors
  | none => []

def methods (e : Entity) : List Member :=
  match e.content with
  | .classContent body | .enumContent body _ => body.methods
  | .interfaceContent methods => methods
  | .placeholder => []

def constants (e : Entity) : List Member :=
  match e.content with
  | .enumContent _ constants => constants
  | .classContent _ | .interfaceContent _ | .placeholder => []

def members (e : Entity) : List Member :=
  e.content.members

def hasMethod (e : Entity) (name : String) : Bool :=
  e.methods.any (·.name = name)

/-- Make a class or an enumeration abstract or not; the others do not change. -/
def setAbstract (e : Entity) (isAbstract : Bool) : Entity :=
  { e with content := e.content.mapBody fun b => { b with isAbstract := isAbstract } }

def setImportant (e : Entity) (important : Bool) : Entity :=
  { e with important := important }

def mapMembers (e : Entity) (f : Member → Member) : Entity :=
  { e with content := e.content.mapMembers f }

/-- Add a member. Attributes and constructors belong to classes and enumerations, constants to
enumerations, and a placeholder has no members. -/
def addMember (e : Entity) (m : Member) : Except ModelError Entity :=
  match e.content.add? m with
  | some content => .ok { e with content := content }
  | none => .error (.memberNotAllowed e.name m.name m.sort)

/-- Add several members; the first that does not fit ends it. -/
def addMembers (e : Entity) : List Member → Except ModelError Entity
  | [] => .ok e
  | m :: rest => do (← e.addMember m).addMembers rest

/-- Combine two definitions. A placeholder adds at most its package; it is replaced by a
declaration, which gets its stereotypes. Of two declarations of one kind the first keeps what it
has and gets what it lacks; two kinds do not go together. -/
def merge (e other : Entity) : Except ModelError Entity :=
  if other.isPlaceholder then
    .ok { e with package := if e.package.isEmpty then other.package else e.package }
  else if e.isPlaceholder then
    .ok { other with stereotypes := uniteTexts other.stereotypes e.stereotypes }
  else
    match e.content.unite? other.content with
    | some content =>
      .ok {
        name := e.name
        content := content
        package := if e.package.isEmpty then other.package else e.package
        doc := if e.doc.isEmpty then other.doc else e.doc
        stereotypes := uniteTexts e.stereotypes other.stereotypes
        generics := if e.generics.isEmpty then other.generics else e.generics
        important := e.important || other.important }
    | none => .error (.kindConflict other.name e.kind other.kind)

end Entity

end ClassDiagram
