import ClassDiagram.Proofs.WellFormed

/-!
# Runs of operations

A diagram is built from the empty one by operations in any order, some of
which may fail. References are never checked again, so what they denote must
survive every operation: an entity keeps its position and its name, and a
declaration keeps its kind.
-/

namespace ClassDiagram

/-- What can be done to a diagram. -/
inductive Operation
  | register (e : Entity)
  | stub (name : String)
  | relate (r : Relation)
  | report (diagnostic : Diagnostic)
  | resolve
  | associate (s : AssociationSettings)
  | synthesizeAccessors
  | markImportant
  | run (s : Settings)
  | fuse (other : Diagram)

namespace Diagram

/-- The diagram that an attempt gives, which is the old one if it fails. -/
def orKeep {ε : Type} (d : Diagram) : Except ε Diagram → Diagram
  | .ok d' => d'
  | .error _ => d

/-- A property of the old diagram holds of the new one if success establishes it. -/
theorem orKeep_induction {ε : Type} {P : Diagram → Prop} {d : Diagram} (hd : P d)
    {attempt : Except ε Diagram} (h : ∀ d', attempt = .ok d' → P d') : P (d.orKeep attempt) := by
  cases attempt with
  | error _ => exact hd
  | ok d' => exact h d' rfl

end Diagram

namespace Operation

/-- Carry out an operation; if it fails, the diagram stays as it is. -/
def apply (d : Diagram) : Operation → Diagram
  | register e => d.orKeep ((d.register e).map Prod.fst)
  | stub name => (d.stub name).1
  | relate r => d.relate r
  | report diagnostic => d.report diagnostic
  | resolve => d.resolve
  | associate s => d.associate s
  | synthesizeAccessors => d.orKeep (d.synthesizeAccessors.map Prod.fst)
  | markImportant => d.markImportant.1
  | run s => d.orKeep ((d.run s).map Prod.fst)
  | fuse other => d.orKeep (d.fuse other)

/-- A relation may be added only with references that exist at that moment. -/
def Allowed (d : Diagram) : Operation → Prop
  | relate r => d.Holds r
  | _ => True

theorem apply_synthesizeAccessors (d : Diagram) :
    synthesizeAccessors.apply d = { d with objects := d.objects.map (·.extended) } := by
  rw [apply, Diagram.synthesizeAccessors_eq]
  rfl

theorem apply_run (s : Settings) (d : Diagram) : (run s).apply d = d.outcome s := by
  rw [apply, Diagram.run_eq]
  rfl

theorem exists_register_of_map {d d' : Diagram} {e : Entity}
    (h : (d.register e).map Prod.fst = .ok d') : ∃ ref, d.register e = .ok (d', ref) := by
  cases hr : d.register e with
  | error _ => rw [hr] at h; cases h
  | ok result =>
      rw [hr] at h
      exact ⟨result.2, by rw [← Except.ok.inj h]⟩

/-- Every operation lets the diagram grow. -/
theorem grows_apply (op : Operation) (d : Diagram) : d.Grows (op.apply d) := by
  cases op with
  | register e =>
      refine Diagram.orKeep_induction (Diagram.Grows.refl d) fun d' h => ?_
      obtain ⟨ref, hr⟩ := exists_register_of_map h
      exact Diagram.grows_of_register hr
  | stub name => exact Diagram.grows_stub d name
  | relate r => exact ⟨Table.Grows.refl _, Table.Grows.refl _⟩
  | report diagnostic => exact ⟨Table.Grows.refl _, Table.Grows.refl _⟩
  | resolve => exact Diagram.grows_resolve d
  | associate s => exact Diagram.grows_associate d s
  | synthesizeAccessors =>
      rw [apply_synthesizeAccessors]
      exact Diagram.grows_mapObjects Entity.kind_extended d
  | markImportant => exact Diagram.grows_mapObjects Entity.kind_markImportant d
  | run s =>
      rw [apply_run]
      exact Diagram.grows_outcome s d
  | fuse other =>
      exact Diagram.orKeep_induction (Diagram.Grows.refl d) fun _ h => Diagram.grows_of_fuse h

/-- Every allowed operation keeps a diagram well-formed if the diagrams that it fuses are. -/
theorem wellFormed_apply {d : Diagram} {op : Operation} (hd : d.WellFormed) (ho : op.Allowed d)
    (hf : ∀ other, op = .fuse other → other.WellFormed) : (op.apply d).WellFormed := by
  cases op with
  | register e =>
      refine Diagram.orKeep_induction hd fun d' h => ?_
      obtain ⟨ref, hr⟩ := exists_register_of_map h
      exact hd.register hr
  | stub name => exact hd.stub name
  | relate r => exact hd.relate ho
  | report diagnostic => exact hd.report diagnostic
  | resolve => exact hd.resolve
  | associate s => exact hd.associate s
  | synthesizeAccessors =>
      rw [apply_synthesizeAccessors]
      exact hd.mapObjects Entity.name_extended Entity.kind_extended
  | markImportant => exact hd.mapObjects Entity.name_markImportant Entity.kind_markImportant
  | run s =>
      rw [apply_run]
      exact hd.outcome s
  | fuse other =>
      exact Diagram.orKeep_induction hd fun _ h => hd.fuse (hf other rfl) h

end Operation

namespace Diagram

/-- Allowed operations lead from one diagram to another. Whatever is fused into it on the way
has been built from the empty diagram likewise. -/
inductive Reaches : Diagram → Diagram → Prop
  | refl (d : Diagram) : Reaches d d
  | step {d d' : Diagram} (h : Reaches d d') (op : Operation) (ho : op.Allowed d')
      (hf : ∀ other, op = .fuse other → Reaches {} other) : Reaches d (op.apply d')

/-- Built from the empty diagram. -/
def Built (d : Diagram) : Prop :=
  Reaches {} d

theorem Reaches.grows {d d' : Diagram} (h : d.Reaches d') : d.Grows d' := by
  induction h with
  | refl d => exact Grows.refl d
  | step _ op _ _ ih _ => exact ih.trans (op.grows_apply _)

theorem Reaches.wellFormed {d d' : Diagram} (h : d.Reaches d') (hd : d.WellFormed) :
    d'.WellFormed := by
  induction h with
  | refl _ => exact hd
  | step _ op ho _ ih ihf =>
      exact Operation.wellFormed_apply (ih hd) ho fun other he => ihf other he wellFormed_empty

end Diagram

/-! ## What a reference denotes -/

/-- The name stays, and so does the kind once it is declared. -/
def Entity.Continues (e e' : Entity) : Prop :=
  e'.name = e.name ∧ (e.isPlaceholder = false → e'.isPlaceholder = false ∧ e'.kind = e.kind)

theorem Table.Grows.continues {t u : Table Entity} (h : t.Grows u) (ht : t.Named) (hu : u.Named)
    {index : Nat} {e : Entity} (he : t.at? index = some e) :
    ∃ e', u.at? index = some e' ∧ e.Continues e' := by
  obtain ⟨key, hk, hg⟩ := (Table.at?_eq_some_iff t index e).mp he
  have hk' : u.key? index = some key := h.key? hk
  obtain ⟨e', he'⟩ := (Table.mem_keys_iff u key).mp (Table.key?_mem hk')
  refine ⟨e', by rw [Table.at?_of_key? hk', he'], ?_, ?_⟩
  · rw [hu key e' he', ht key e hg]
  · intro hd
    obtain ⟨e'', he'', hkind⟩ := h.kind key e hg hd
    rw [he'] at he''
    obtain rfl := Option.some.inj he''
    refine ⟨?_, hkind⟩
    rw [Entity.declared_iff, hkind, ← Entity.declared_iff]
    exact hd

namespace Diagram

theorem Grows.continues {d d' : Diagram} (h : d.Grows d') (hd : d.WellFormed)
    (hd' : d'.WellFormed) {ref : Ref} {e : Entity} (he : d.entity? ref = some e) :
    ∃ e', d'.entity? ref = some e' ∧ e.Continues e' := by
  cases ref with
  | registered index => exact h.objects.continues hd.objects hd'.objects he
  | stub index => exact h.stubs.continues hd.stubs hd'.stubs he

/-- References are stable: whatever is built is well-formed, and after any further operations a
reference denotes an entity of the same name and, if it was declared, still of its kind. -/
theorem Built.wellFormed_and_continues {d d' : Diagram} (hd : d.Built) (h : d.Reaches d') :
    d.WellFormed ∧ d'.WellFormed ∧
      ∀ ref e, d.entity? ref = some e → ∃ e', d'.entity? ref = some e' ∧ e.Continues e' := by
  have hw : d.WellFormed := hd.wellFormed wellFormed_empty
  have hw' : d'.WellFormed := h.wellFormed hw
  exact ⟨hw, hw', fun ref e he => h.grows.continues hw hw' he⟩

/-- An order that refers to a placeholder for its item. -/
def sketch : Diagram :=
  [.register (.placeholder "Item"), .register (.ofKind .classKind "Order" []),
    .relate (.associate (.registered 1) (.registered 0) {})].foldl Operation.apply {}

/-- The declaration of the item, behind another one. -/
def catalogue : Diagram :=
  [.register (.ofKind .enumKind "Shop" []),
    .register (.ofKind .classKind "Item" [])].foldl Operation.apply {}

theorem built_sketch : sketch.Built := by
  have hitem := Reaches.step (.refl {}) (.register (.placeholder "Item")) trivial nofun
  have horder := hitem.step (.register (.ofKind .classKind "Order" [])) trivial nofun
  refine horder.step (.relate (.associate (.registered 1) (.registered 0) {})) ?_ nofun
  unfold Operation.Allowed
  decide

theorem built_catalogue : catalogue.Built := by
  have hshop := Reaches.step (.refl {}) (.register (.ofKind .enumKind "Shop" [])) trivial nofun
  exact hshop.step (.register (.ofKind .classKind "Item" [])) trivial nofun

/-- Fusing the declaration into the sketch completes the placeholder behind its reference and
leaves the order where it was. -/
theorem continues_sketch_fuse_catalogue :
    sketch.Built ∧ sketch.Reaches (Operation.apply sketch (.fuse catalogue)) ∧
      sketch.entity? (.registered 0) = some (.placeholder "Item") ∧
      (∃ e, (Operation.apply sketch (.fuse catalogue)).entity? (.registered 0) = some e ∧
        e.kind = .classKind ∧ (Entity.placeholder "Item").Continues e) ∧
      ∃ e, (Operation.apply sketch (.fuse catalogue)).entity? (.registered 1) = some e ∧
        (Entity.ofKind .classKind "Order" []).Continues e := by
  have hr : sketch.Reaches (Operation.apply sketch (.fuse catalogue)) := by
    refine .step (.refl sketch) (.fuse catalogue) trivial ?_
    rintro other he
    rw [← Operation.fuse.inj he]
    exact built_catalogue
  obtain ⟨_, _, hcontinues⟩ := built_sketch.wellFormed_and_continues hr
  obtain ⟨e, he, hce⟩ := hcontinues (.registered 0) (.placeholder "Item") rfl
  refine ⟨built_sketch, hr, rfl, ⟨e, he, ?_, hce⟩, hcontinues (.registered 1) _ rfl⟩
  have hclass : (Operation.apply sketch (.fuse catalogue)).entity? (.registered 0) =
      some (.ofKind .classKind "Item" []) := by decide
  rw [hclass] at he
  rw [← Option.some.inj he]
  rfl

end Diagram

end ClassDiagram
