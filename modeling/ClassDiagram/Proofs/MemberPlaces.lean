import ClassDiagram.Proofs.AccessorEffect

/-!
# Where members come to stand

The kind of an entity decides which sorts of members it can hold. A member that fits is appended
to the list of its sort, and all other lists stay; one that does not fit is refused. Nothing else
brings members in, so in whatever way an entity has come about, each list holds one sort, and the
lists that its kind has no room for are empty. Visiting the members goes through the lists one
after the other.

## Implementation notes

`addMember` returns no entity when it fails. To say what becomes of the entity then,
`addMemberInPlace` changes it where it stands, and an error that it raises comes with the state
that was reached.
-/

namespace ClassDiagram

/-- Whether an entity of a kind can hold members of a sort. -/
def EntityKind.holds (kind : EntityKind) : MemberSort → Bool
  | .attr | .constructor => kind == classKind || kind == enumKind
  | .method => kind != unresolved
  | .constant => kind == enumKind

/-! ## Adding a member -/

/-- The members of one sort in a body. -/
def Body.list (b : Body) : MemberSort → List Member
  | .attr => b.attributes
  | .method => b.methods
  | .constructor => b.constructors
  | .constant => []

/-- The member stands at the end of the list of its sort, and the other lists are as they were. -/
structure Body.Appends (b : Body) (m : Member) (b' : Body) : Prop where
  isAbstract : b'.isAbstract = b.isAbstract
  list : ∀ sort, b'.list sort = if sort = m.sort then b.list sort ++ [m] else b.list sort

theorem Body.appends_of_add? {b b' : Body} {m : Member} (h : b.add? m = some b') :
    b.Appends m b' := by
  unfold add? at h
  split at h
  · next hs =>
      cases h
      exact ⟨rfl, fun sort => by cases sort <;> simp [list, hs]⟩
  · next hs =>
      cases h
      exact ⟨rfl, fun sort => by cases sort <;> simp [list, hs]⟩
  · next hs =>
      cases h
      exact ⟨rfl, fun sort => by cases sort <;> simp [list, hs]⟩
  · cases h

theorem Content.add?_eq_none_iff (c : Content) (m : Member) :
    c.add? m = none ↔ c.kind.holds m.sort = false := by
  cases c <;> cases hs : m.sort <;> simp [add?, Body.add?, hs, kind, EntityKind.holds]

namespace Entity

/-- The member stands at the end of the list of its sort, and nothing else has changed. -/
structure Appends (e : Entity) (m : Member) (e' : Entity) : Prop extends SameHeader e e' where
  important : e'.important = e.important
  list : ∀ sort, e'.list sort = if sort = m.sort then e.list sort ++ [m] else e.list sort

theorem addMember_eq_ok_iff {e e' : Entity} {m : Member} :
    e.addMember m = .ok e' ↔
      ∃ content, e.content.add? m = some content ∧ e' = { e with content := content } := by
  unfold addMember
  cases e.content.add? m with
  | none => simp
  | some content => simp [eq_comm]

theorem appends_of_addMember {e e' : Entity} {m : Member} (h : e.addMember m = .ok e') :
    e.Appends m e' := by
  obtain ⟨content, hc, rfl⟩ := addMember_eq_ok_iff.mp h
  obtain ⟨name, own, package, doc, stereotypes, generics, important⟩ := e
  cases own with
  | classContent body =>
      obtain ⟨body', hadd, rfl⟩ := Option.map_eq_some_iff.mp hc
      have hb := Body.appends_of_add? hadd
      refine ⟨⟨rfl, rfl, rfl, rfl, rfl, rfl, congrArg some hb.isAbstract⟩, rfl, fun sort => ?_⟩
      have hlist := hb.list sort
      cases sort with
      | attr | method | constructor | constant => exact hlist
  | enumContent body constants =>
      simp only [Content.add?] at hc
      split at hc
      · next hs =>
          cases hc
          refine ⟨⟨rfl, rfl, rfl, rfl, rfl, rfl, rfl⟩, rfl, fun sort => ?_⟩
          rw [hs]
          cases sort <;> rfl
      · next hs =>
          obtain ⟨body', hadd, rfl⟩ := Option.map_eq_some_iff.mp hc
          have hb := Body.appends_of_add? hadd
          refine ⟨⟨rfl, rfl, rfl, rfl, rfl, rfl, congrArg some hb.isAbstract⟩, rfl, fun sort => ?_⟩
          have hlist := hb.list sort
          cases sort with
          | attr | method | constructor => exact hlist
          | constant => exact (if_neg (Ne.symm hs)).symm
  | interfaceContent methods =>
      simp only [Content.add?] at hc
      split at hc
      · next hs =>
          cases hc
          refine ⟨⟨rfl, rfl, rfl, rfl, rfl, rfl, rfl⟩, rfl, fun sort => ?_⟩
          rw [hs]
          cases sort <;> rfl
      · cases hc
  | placeholder => cases hc

theorem addMember_eq_error_iff {e : Entity} {m : Member} {error : ModelError} :
    e.addMember m = .error error ↔
      e.kind.holds m.sort = false ∧ error = .memberNotAllowed e.name m.name m.sort := by
  rw [kind, ← Content.add?_eq_none_iff, addMember]
  cases e.content.add? m with
  | none => simp [eq_comm]
  | some content => simp

/-- Add a member to an entity where it stands. -/
def addMemberInPlace (m : Member) : EStateM ModelError Entity Unit := do
  let e ← get
  match e.content.add? m with
  | some content => set { e with content := content }
  | none => throw (.memberNotAllowed e.name m.name m.sort)

/-- Adding in place ends in the entity with the member, or with the error in the entity as it
was. -/
theorem run_addMemberInPlace (e : Entity) (m : Member) :
    (addMemberInPlace m).run e =
      match e.addMember m with
      | .ok e' => .ok () e'
      | .error error => .error error e := by
  have hrun : (addMemberInPlace m).run e =
      (match e.content.add? m with
        | some content => set { e with content := content }
        | none => throw (.memberNotAllowed e.name m.name m.sort) :
        EStateM ModelError Entity Unit).run e := rfl
  rw [hrun, addMember]
  cases e.content.add? m <;> rfl

/-! ## Lists without room, and visits -/

/-- An entity has no list for members that its kind does not hold. -/
theorem list_eq_nil {e : Entity} {sort : MemberSort} (h : e.kind.holds sort = false) :
    e.list sort = [] := by
  obtain ⟨name, content, package, doc, stereotypes, generics, important⟩ := e
  cases content with
  | classContent body =>
      cases sort with
      | attr | method | constructor => cases h
      | constant => rfl
  | enumContent body constants => cases sort <;> cases h
  | interfaceContent methods =>
      cases sort with
      | method => cases h
      | attr | constructor | constant => rfl
  | placeholder => cases sort <;> rfl

theorem members_eq (e : Entity) :
    e.members = e.constants ++ e.attributes ++ e.constructors ++ e.methods := by
  obtain ⟨name, content, package, doc, stereotypes, generics, important⟩ := e
  cases content with
  | classContent body => rfl
  | enumContent body constants =>
      change constants ++ (body.attributes ++ body.constructors ++ body.methods) =
        constants ++ body.attributes ++ body.constructors ++ body.methods
      simp only [List.append_assoc]
  | interfaceContent methods => rfl
  | placeholder => rfl

theorem list_mapMembers (f : Member → Member) (e : Entity) (sort : MemberSort) :
    (e.mapMembers f).list sort = (e.list sort).map f := by
  cases sort with
  | attr => exact attributes_mapMembers f e
  | method => exact methods_mapMembers f e
  | constructor => exact constructors_mapMembers f e
  | constant => exact constants_mapMembers f e

theorem members_mapMembers (f : Member → Member) (e : Entity) :
    (e.mapMembers f).members = e.members.map f := by
  rw [members_eq, members_eq, attributes_mapMembers, constructors_mapMembers, methods_mapMembers,
    constants_mapMembers]
  simp only [List.map_append]

end Entity

/-! ## All entities that can be built -/

/-- What members are brought into: an entity on its own, or a diagram of entities. -/
inductive Work
  | entity (e : Entity)
  | diagram (d : Diagram)

/-- Entities start without members and get them by additions and merges; diagrams start empty, and
get entities and other diagrams by operations, or when an entity in them is put in place of another
one. What is in a diagram can be taken out and worked on. Attempts that fail change nothing. -/
inductive Assembled : Work → Prop
  | ofKind (kind : EntityKind) (name : String) (package : List String) :
      Assembled (.entity (.ofKind kind name package))
  | describe {e e' : Entity} (h : Assembled (.entity e)) (hc : e'.content = e.content) :
      Assembled (.entity e')
  | setAbstract {e : Entity} (h : Assembled (.entity e)) (isAbstract : Bool) :
      Assembled (.entity (e.setAbstract isAbstract))
  | addMember {e e' : Entity} {m : Member} (h : Assembled (.entity e))
      (ha : e.addMember m = .ok e') : Assembled (.entity e')
  | merge {e other merged : Entity} (h : Assembled (.entity e)) (ho : Assembled (.entity other))
      (hm : e.merge other = .ok merged) : Assembled (.entity merged)
  | take {d : Diagram} {ref : Ref} {e : Entity} (h : Assembled (.diagram d))
      (he : d.entity? ref = some e) : Assembled (.entity e)
  | empty : Assembled (.diagram {})
  | apply {d : Diagram} (h : Assembled (.diagram d)) (op : Operation)
      (hr : ∀ e, op = .register e → Assembled (.entity e))
      (hf : ∀ other, op = .fuse other → Assembled (.diagram other)) :
      Assembled (.diagram (op.apply d))
  | put {d : Diagram} {e : Entity} (h : Assembled (.diagram d)) (he : Assembled (.entity e))
      (ref : Ref) : Assembled (.diagram (d.modifyEntity ref fun _ => e))

/-- All entities that a work consists of have their members in the lists of their sorts. -/
def Work.Sorted : Work → Prop
  | entity e => e.Sorted
  | diagram d => d.objects.Sorted ∧ d.stubs.Sorted

theorem Content.Sorted.mapBody {c : Content} {f : Body → Body} (h : c.Sorted)
    (hf : ∀ b : Body, b.Sorted → (f b).Sorted) : (c.mapBody f).Sorted := by
  cases c with
  | classContent body => exact hf body h
  | enumContent body constants => exact ⟨hf body h.1, h.2⟩
  | interfaceContent methods => exact h
  | placeholder => trivial

theorem Diagram.sorted_of_entity? {d : Diagram} (ho : d.objects.Sorted) (hs : d.stubs.Sorted)
    {ref : Ref} {e : Entity} (h : d.entity? ref = some e) : e.Sorted := by
  cases ref with
  | registered index =>
      obtain ⟨key, _, hkey⟩ := (Table.at?_eq_some_iff d.objects index e).mp h
      exact ho key e hkey
  | stub index =>
      obtain ⟨key, _, hkey⟩ := (Table.at?_eq_some_iff d.stubs index e).mp h
      exact hs key e hkey

/-- Every step keeps the members in the lists of their sorts. -/
theorem Assembled.sorted {work : Work} (h : Assembled work) : work.Sorted := by
  induction h with
  | ofKind kind name package => exact Entity.sorted_ofKind kind name package
  | @describe e e' _ hc ih =>
      have he : e.content.Sorted := ih
      rw [← hc] at he
      exact he
  | setAbstract _ isAbstract ih =>
      exact Content.Sorted.mapBody ih fun _ hb => ⟨hb.attributes, hb.constructors, hb.methods⟩
  | addMember _ ha ih => exact Entity.Sorted.addMember ih ha
  | merge _ _ hm ih iho => exact Entity.Sorted.merge ih iho hm
  | take _ he ih => exact Diagram.sorted_of_entity? ih.1 ih.2 he
  | empty => exact ⟨nofun, nofun⟩
  | apply _ op _ _ ih ihr ihf =>
      have hop : op.Sorted := by
        cases op with
        | register e => exact ihr e rfl
        | fuse other => exact (ihf other rfl).1
        | _ => trivial
      exact ⟨Operation.sorted_apply ih.1 hop, Operation.sorted_stubs_apply ih.2 op⟩
  | put _ _ ref ih ihe =>
      cases ref with
      | registered index => exact ⟨ih.1.modify (fun _ _ => ihe) index, ih.2⟩
      | stub index => exact ⟨ih.1, ih.2.modify (fun _ _ => ihe) index⟩

/-- However an entity has come about, its members stand in the list of their sort, and the lists
that its kind has no room for are empty. Adding a member is refused exactly if the kind cannot hold
its sort, and the entity is then left as it was; otherwise the member stands at the end of one list,
and nothing else has changed. Visiting the members goes once through every list. -/
theorem Assembled.keeps_members_apart {e : Entity} (h : Assembled (.entity e)) :
    (∀ sort : MemberSort, sort.AllOf (e.list sort)) ∧
      (∀ sort, e.kind.holds sort = false → e.list sort = []) ∧
      (∀ m, (∃ error, e.addMember m = .error error) ↔ e.kind.holds m.sort = false) ∧
      (∀ m error, e.addMember m = .error error →
        error = .memberNotAllowed e.name m.name m.sort ∧
          (Entity.addMemberInPlace m).run e = .error error e) ∧
      (∀ m e', e.addMember m = .ok e' →
        (Entity.addMemberInPlace m).run e = .ok () e' ∧ e.Appends m e') ∧
      e.members = e.constants ++ e.attributes ++ e.constructors ++ e.methods ∧
      ∀ f, (e.mapMembers f).members = e.members.map f ∧
        ∀ sort, (e.mapMembers f).list sort = (e.list sort).map f := by
  have hsorted : e.Sorted := h.sorted
  refine ⟨hsorted.list, fun _ => Entity.list_eq_nil, fun m => ?_, fun m error herror => ?_,
    fun m e' hok => ?_, e.members_eq, fun f => ⟨e.members_mapMembers f, e.list_mapMembers f⟩⟩
  · constructor
    · rintro ⟨error, herror⟩
      exact (Entity.addMember_eq_error_iff.mp herror).1
    · exact fun hkind => ⟨_, Entity.addMember_eq_error_iff.mpr ⟨hkind, rfl⟩⟩
  · refine ⟨(Entity.addMember_eq_error_iff.mp herror).2, ?_⟩
    rw [Entity.run_addMemberInPlace, herror]
  · refine ⟨?_, Entity.appends_of_addMember hok⟩
    rw [Entity.run_addMemberInPlace, hok]

/-- An order with the items that it consists of. -/
def listedOrder : Entity where
  name := "Order"
  content := .classContent { attributes := [.attr "items" .privateAccess (.named "Basket")] }

/-- An order with what is to be paid for it. -/
def pricedOrder : Entity where
  name := "Order"
  content := .classContent { methods := [.method "total" .publicAccess [] (.primitive "long")] }

/-- The order that the two become in one diagram, with an accessor. -/
def completeOrder : Entity where
  name := "Order"
  content := .classContent {
    attributes := [.attr "items" .privateAccess (.named "Basket")]
    methods := [.method "total" .publicAccess [] (.primitive "long"),
      { Member.method "getItems" .publicAccess [] (.named "Basket") with
        stereotypes := ["generated"] }] }

/-- The order comes out of two additions, a fusion and an accessor. It can get a constructor, but no
constant. -/
theorem Assembled.keeps_members_apart_order :
    Assembled (.entity completeOrder) ∧ MemberSort.method.AllOf completeOrder.methods ∧
      completeOrder.constants = [] ∧
      (Entity.addMemberInPlace (.constant "OPEN")).run completeOrder =
        .error (.memberNotAllowed "Order" "OPEN" .constant) completeOrder ∧
      ∃ e', (Entity.addMemberInPlace (.constructor "Order" .publicAccess [])).run completeOrder =
          .ok () e' ∧ completeOrder.Appends (.constructor "Order" .publicAccess []) e' := by
  have hitems : (Entity.ofKind .classKind "Order" []).addMember
      (.attr "items" .privateAccess (.named "Basket")) = .ok listedOrder := rfl
  have htotal : (Entity.ofKind .classKind "Order" []).addMember
      (.method "total" .publicAccess [] (.primitive "long")) = .ok pricedOrder := rfl
  have hlisted : Assembled (.diagram ((Operation.register listedOrder).apply {})) :=
    .apply .empty _ (by rintro _ ⟨⟩; exact .addMember (.ofKind _ _ _) hitems) nofun
  have hpriced : Assembled (.diagram ((Operation.register pricedOrder).apply {})) :=
    .apply .empty _ (by rintro _ ⟨⟩; exact .addMember (.ofKind _ _ _) htotal) nofun
  have hfused := hlisted.apply (.fuse ((Operation.register pricedOrder).apply {})) nofun
    (by rintro _ ⟨⟩; exact hpriced)
  have htaken : (Operation.synthesizeAccessors.apply
      ((Operation.fuse ((Operation.register pricedOrder).apply {})).apply
        ((Operation.register listedOrder).apply {}))).entity? (.registered 0) =
      some completeOrder := by decide +kernel
  have horder : Assembled (.entity completeOrder) :=
    .take (hfused.apply .synthesizeAccessors nofun nofun) htaken
  obtain ⟨hsorts, hempty, _, hrefused, hadded, _⟩ := Assembled.keeps_members_apart horder
  exact ⟨horder, hsorts .method, hempty .constant rfl, (hrefused (.constant "OPEN") _ rfl).2, _,
    hadded (.constructor "Order" .publicAccess []) _ rfl⟩

end ClassDiagram
