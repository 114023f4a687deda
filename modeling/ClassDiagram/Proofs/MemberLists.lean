import ClassDiagram.Proofs.Operations

/-!
# Members in the lists of their sort

All lists of an entity hold members of one type, so only the way they come in
keeps attributes, constructors, methods and constants apart. Adding puts a
member into the list of its sort, merging unites lists of one sort, and no pass
changes the sort of a member. Diagrams that are built of sorted entities
therefore hold sorted entities.
-/

namespace ClassDiagram

/-! ## Lists of one sort -/

namespace MemberSort

/-- All members of a list are of the sort. -/
def AllOf (sort : MemberSort) (ms : List Member) : Prop :=
  ∀ m ∈ ms, m.sort = sort

variable {sort : MemberSort} {ms more : List Member}

instance : Decidable (sort.AllOf ms) :=
  inferInstanceAs (Decidable (∀ m ∈ ms, m.sort = sort))

theorem allOf_nil (sort : MemberSort) : sort.AllOf [] :=
  List.forall_mem_nil _

theorem AllOf.append (h : sort.AllOf ms) (h' : sort.AllOf more) : sort.AllOf (ms ++ more) := by
  intro m hm
  rcases List.mem_append.mp hm with hold | hnew
  · exact h m hold
  · exact h' m hnew

theorem allOf_singleton {m : Member} (h : m.sort = sort) : sort.AllOf [m] := by
  intro m' hm
  rw [List.mem_singleton.mp hm, h]

theorem AllOf.map {f : Member → Member} (hf : ∀ m, (f m).sort = m.sort) (h : sort.AllOf ms) :
    sort.AllOf (ms.map f) := by
  intro m hm
  obtain ⟨m', hm', rfl⟩ := List.mem_map.mp hm
  rw [hf, h m' hm']

theorem AllOf.unite (h : sort.AllOf ms) (h' : sort.AllOf more) :
    sort.AllOf (uniteMembers ms more) := by
  induction more generalizing ms with
  | nil => exact h
  | cons m rest ih =>
      have hrest : sort.AllOf rest := fun m' hm' => h' m' (List.mem_cons_of_mem _ hm')
      change sort.AllOf
        (uniteMembers (if ms.any (·.signature = m.signature) then ms else ms ++ [m]) rest)
      split
      · exact ih h hrest
      · exact ih (h.append (allOf_singleton (h' m List.mem_cons_self))) hrest

end MemberSort

/-! ## Sorted entities -/

/-- Each list of a body holds members of its own sort. -/
structure Body.Sorted (b : Body) : Prop where
  attributes : MemberSort.attr.AllOf b.attributes
  constructors : MemberSort.constructor.AllOf b.constructors
  methods : MemberSort.method.AllOf b.methods

namespace Body

instance (b : Body) : Decidable b.Sorted :=
  decidable_of_iff (MemberSort.attr.AllOf b.attributes ∧
      MemberSort.constructor.AllOf b.constructors ∧ MemberSort.method.AllOf b.methods)
    ⟨fun h => ⟨h.1, h.2.1, h.2.2⟩, fun h => ⟨h.attributes, h.constructors, h.methods⟩⟩

variable {b b' : Body}

theorem Sorted.add? {m : Member} (h : b.Sorted) (ha : b.add? m = some b') : b'.Sorted := by
  unfold Body.add? at ha
  split at ha
  · next hs =>
      cases ha
      exact { h with attributes := h.attributes.append (MemberSort.allOf_singleton hs) }
  · next hs =>
      cases ha
      exact { h with constructors := h.constructors.append (MemberSort.allOf_singleton hs) }
  · next hs =>
      cases ha
      exact { h with methods := h.methods.append (MemberSort.allOf_singleton hs) }
  · cases ha

theorem Sorted.map {f : Member → Member} (hf : ∀ m, (f m).sort = m.sort) (h : b.Sorted) :
    (b.mapMembers f).Sorted :=
  ⟨h.attributes.map hf, h.constructors.map hf, h.methods.map hf⟩

theorem Sorted.unite (h : b.Sorted) (h' : b'.Sorted) : (b.unite b').Sorted :=
  ⟨h.attributes.unite h'.attributes, h.constructors.unite h'.constructors,
    h.methods.unite h'.methods⟩

end Body

namespace Content

/-- Each list holds members of its own sort. -/
def Sorted : Content → Prop
  | classContent body => body.Sorted
  | enumContent body constants => body.Sorted ∧ MemberSort.constant.AllOf constants
  | interfaceContent methods => MemberSort.method.AllOf methods
  | placeholder => True

instance (c : Content) : Decidable c.Sorted :=
  match c with
  | classContent body => inferInstanceAs (Decidable body.Sorted)
  | enumContent body constants =>
    inferInstanceAs (Decidable (body.Sorted ∧ MemberSort.constant.AllOf constants))
  | interfaceContent methods => inferInstanceAs (Decidable (MemberSort.method.AllOf methods))
  | placeholder => inferInstanceAs (Decidable True)

variable {c c' : Content}

theorem sorted_ofKind (kind : EntityKind) : (ofKind kind).Sorted := by
  cases kind <;> decide

theorem Sorted.add? {m : Member} (h : c.Sorted) (ha : c.add? m = some c') : c'.Sorted := by
  cases c with
  | classContent body =>
      obtain ⟨body', hb, rfl⟩ := Option.map_eq_some_iff.mp ha
      exact Body.Sorted.add? h hb
  | enumContent body constants =>
      simp only [Content.add?] at ha
      split at ha
      · next hs =>
          cases ha
          exact ⟨h.1, h.2.append (MemberSort.allOf_singleton hs)⟩
      · obtain ⟨body', hb, rfl⟩ := Option.map_eq_some_iff.mp ha
        exact ⟨h.1.add? hb, h.2⟩
  | interfaceContent methods =>
      simp only [Content.add?] at ha
      split at ha
      · next hs =>
          cases ha
          exact MemberSort.AllOf.append h (MemberSort.allOf_singleton hs)
      · cases ha
  | placeholder => cases ha

theorem Sorted.map {f : Member → Member} (hf : ∀ m, (f m).sort = m.sort) (h : c.Sorted) :
    (c.mapMembers f).Sorted := by
  cases c with
  | classContent body => exact Body.Sorted.map hf h
  | enumContent body constants => exact ⟨h.1.map hf, h.2.map hf⟩
  | interfaceContent methods => exact MemberSort.AllOf.map hf h
  | placeholder => trivial

theorem Sorted.appendMethods {more : List Member} (h : c.Sorted)
    (hm : MemberSort.method.AllOf more) : (c.appendMethods more).Sorted := by
  cases c with
  | classContent body => exact { h with methods := (Body.Sorted.methods h).append hm }
  | enumContent body constants => exact ⟨{ h.1 with methods := h.1.methods.append hm }, h.2⟩
  | interfaceContent methods => exact MemberSort.AllOf.append h hm
  | placeholder => trivial

theorem Sorted.unite? {united : Content} (h : c.Sorted) (h' : c'.Sorted)
    (hu : c.unite? c' = some united) : united.Sorted := by
  unfold Content.unite? at hu
  split at hu
  · cases hu
    exact Body.Sorted.unite h h'
  · cases hu
    exact ⟨h.1.unite h'.1, h.2.unite h'.2⟩
  · cases hu
    exact MemberSort.AllOf.unite h h'
  · cases hu

end Content

namespace Entity

/-- Each list of an entity holds members of its own sort. -/
def Sorted (e : Entity) : Prop :=
  e.content.Sorted

instance (e : Entity) : Decidable e.Sorted :=
  inferInstanceAs (Decidable e.content.Sorted)

variable {e e' : Entity}

/-- The members of one sort. -/
def list (e : Entity) : MemberSort → List Member
  | .attr => e.attributes
  | .method => e.methods
  | .constructor => e.constructors
  | .constant => e.constants

theorem Sorted.list (h : e.Sorted) (sort : MemberSort) : sort.AllOf (e.list sort) := by
  obtain ⟨name, content, package, doc, stereotypes, generics, important⟩ := e
  cases content with
  | classContent body =>
      have hb : body.Sorted := h
      cases sort with
      | attr => exact hb.attributes
      | method => exact hb.methods
      | constructor => exact hb.constructors
      | constant => exact MemberSort.allOf_nil .constant
  | enumContent body constants =>
      obtain ⟨hb, hc⟩ : body.Sorted ∧ MemberSort.constant.AllOf constants := h
      cases sort with
      | attr => exact hb.attributes
      | method => exact hb.methods
      | constructor => exact hb.constructors
      | constant => exact hc
  | interfaceContent methods =>
      have hm : MemberSort.method.AllOf methods := h
      cases sort with
      | method => exact hm
      | attr | constructor | constant => exact MemberSort.allOf_nil _
  | placeholder => cases sort <;> exact MemberSort.allOf_nil _

theorem sorted_ofKind (kind : EntityKind) (name : String) (package : List String) :
    (ofKind kind name package).Sorted :=
  Content.sorted_ofKind kind

theorem Sorted.addMember {m : Member} (h : e.Sorted) (ha : e.addMember m = .ok e') :
    e'.Sorted := by
  unfold Entity.addMember at ha
  split at ha
  · next content hc =>
      cases ha
      exact Content.Sorted.add? h hc
  · cases ha

theorem Sorted.merge {other merged : Entity} (h : e.Sorted) (h' : other.Sorted)
    (hm : e.merge other = .ok merged) : merged.Sorted := by
  cases ho : other.isPlaceholder with
  | true =>
      rw [merge_placeholder_right ho] at hm
      cases hm
      exact h
  | false =>
      cases he : e.isPlaceholder with
      | true =>
          rw [merge_placeholder_left he ho] at hm
          cases hm
          exact h'
      | false =>
          obtain ⟨content, hc, rfl⟩ := (merge_declared_eq_ok_iff he ho).mp hm
          exact Content.Sorted.unite? h h' hc

theorem Sorted.markImportant (h : e.Sorted) : e.markImportant.Sorted :=
  Content.Sorted.map (fun _ => rfl) h

theorem Sorted.extended (h : e.Sorted) : e.extended.Sorted :=
  Content.Sorted.appendMethods h fun _ ha => sort_of_mem_missingAccessors ha

end Entity

theorem Entity.Sorted.finish {e : Entity} (h : e.Sorted) (s : Settings) : (s.finish e).Sorted := by
  have haccess : (s.access e).Sorted := by
    unfold Settings.access
    split
    · exact h.extended
    · exact h
  unfold Settings.finish Settings.flag
  split
  · exact haccess.markImportant
  · exact haccess

/-! ## Sorted diagrams -/

namespace Table

/-- Every entity is sorted. -/
def Sorted (t : Table Entity) : Prop :=
  ∀ key e, t.get? key = some e → e.Sorted

theorem Sorted.insert {t : Table Entity} (h : t.Sorted) {key : String} {value : Entity}
    (hv : value.Sorted) : (t.insert key value).Sorted := by
  intro other e he
  rw [get?_insert] at he
  split at he
  · rw [← Option.some.inj he]
    exact hv
  · exact h other e he

theorem Sorted.map {f : Entity → Entity} (hf : ∀ e : Entity, e.Sorted → (f e).Sorted)
    {t : Table Entity} (h : t.Sorted) : (t.map f).Sorted := by
  intro key e he
  rw [get?_map] at he
  obtain ⟨e', he', rfl⟩ := Option.map_eq_some_iff.mp he
  exact hf e' (h key e' he')

theorem Sorted.ensure {t : Table Entity} (h : t.Sorted) {key : String} {value : Entity}
    (hv : value.Sorted) : (t.ensure key value).Sorted := by
  unfold Table.ensure
  split
  · exact h
  · exact h.insert hv

theorem Sorted.ensureStubs {t : Table Entity} (h : t.Sorted) (names : List String) :
    (Diagram.ensureStubs t names).Sorted := by
  induction names generalizing t with
  | nil => exact h
  | cons name rest ih => exact ih (h.ensure (Entity.sorted_ofKind .unresolved name []))

theorem Sorted.modify {t : Table Entity} (h : t.Sorted) {f : Entity → Entity}
    (hf : ∀ e : Entity, e.Sorted → (f e).Sorted) (index : Nat) : (t.modify index f).Sorted := by
  intro key e he
  have hm : (key, e) ∈ t.entries.modify index fun entry => (entry.1, f entry.2) :=
    (mem_entries_iff (t.modify index f) key e).mpr he
  obtain ⟨i, hi, hentry⟩ := List.mem_iff_getElem.mp hm
  have hlt : i < t.entries.length := by simpa using hi
  have hold : t.entries[i].2.Sorted :=
    h t.entries[i].1 t.entries[i].2 ((mem_entries_iff t _ _).mp (List.getElem_mem hlt))
  rw [List.getElem_modify] at hentry
  split at hentry
  · rw [← (Prod.mk.inj hentry).2]
    exact hf _ hold
  · rw [hentry] at hold
    exact hold

end Table

theorem Joined.sorted {present incoming : Option Entity} {merged : Entity}
    (h : Joined present incoming (some merged)) (hp : ∀ e ∈ present, e.Sorted)
    (hi : ∀ e ∈ incoming, e.Sorted) : merged.Sorted := by
  cases h with
  | incoming => exact hi merged rfl
  | present => exact hp merged rfl
  | both hm => exact (hp _ rfl).merge (hi _ rfl) hm

/-- What an operation brings in is sorted. -/
def Operation.Sorted : Operation → Prop
  | register e => e.Sorted
  | fuse other => other.objects.Sorted
  | _ => True

/-- Operations that bring in sorted entities keep the registered entities sorted. -/
theorem Operation.sorted_apply {d : Diagram} {op : Operation} (hd : d.objects.Sorted)
    (ho : op.Sorted) : (op.apply d).objects.Sorted := by
  cases op with
  | register e =>
      refine Diagram.orKeep_induction (P := fun d => d.objects.Sorted) hd fun d' h => ?_
      obtain ⟨ref, hr⟩ := exists_register_of_map h
      obtain ⟨value, hj, rfl⟩ := Diagram.register_eq_ok hr
      have hv : value.Sorted := hj.sorted (hd e.name) fun _ he => Option.some.inj he ▸ ho
      exact hd.insert hv
  | stub name => exact hd
  | relate r => exact hd
  | report diagnostic => exact hd
  | resolve => exact hd
  | associate s =>
      rw [apply, Diagram.objects_associate]
      exact hd
  | synthesizeAccessors =>
      rw [apply_synthesizeAccessors]
      exact hd.map fun _ h => h.extended
  | markImportant => exact hd.map fun _ h => h.markImportant
  | run s =>
      rw [apply_run]
      exact hd.map fun _ h => h.finish s
  | fuse other =>
      refine Diagram.orKeep_induction (P := fun d => d.objects.Sorted) hd fun fused h => ?_
      obtain ⟨objects, hf, rfl⟩ := Diagram.fuse_eq_ok h
      intro key e he
      have hj := hf.get? key
      rw [show objects.get? key = some e from he] at hj
      exact hj.sorted (hd key) (ho key)

/-- No operation puts an unsorted entity among the stubs. -/
theorem Operation.sorted_stubs_apply {d : Diagram} (hd : d.stubs.Sorted) (op : Operation) :
    (op.apply d).stubs.Sorted := by
  have hresolve : d.resolve.stubs.Sorted := hd.ensureStubs d.missingNames
  cases op with
  | register e =>
      refine Diagram.orKeep_induction (P := fun d => d.stubs.Sorted) hd fun d' h => ?_
      obtain ⟨ref, hr⟩ := exists_register_of_map h
      obtain ⟨value, _, rfl⟩ := Diagram.register_eq_ok hr
      exact hd
  | stub name => exact hd.ensure (Entity.sorted_ofKind .unresolved name [])
  | relate r => exact hd
  | report diagnostic => exact hd
  | resolve => exact hresolve
  | associate s =>
      rw [apply, Diagram.stubs_associate]
      exact hd
  | synthesizeAccessors =>
      rw [apply_synthesizeAccessors]
      exact hd
  | markImportant => exact hd
  | run s =>
      rw [apply_run]
      change (d.resolve.associate s.association).stubs.Sorted
      rw [Diagram.stubs_associate]
      exact hresolve
  | fuse other =>
      refine Diagram.orKeep_induction (P := fun d => d.stubs.Sorted) hd fun fused h => ?_
      obtain ⟨objects, _, rfl⟩ := Diagram.fuse_eq_ok h
      exact hd

end ClassDiagram
