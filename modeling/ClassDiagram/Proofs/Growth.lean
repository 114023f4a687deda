import ClassDiagram.Diagram
import ClassDiagram.Proofs.Table
import ClassDiagram.Proofs.Union

/-!
# Growing diagrams

References are positions, so they survive exactly those changes that leave the
keys of both tables where they are. A table grows if its keys stay in front of
the new ones and each declaration stays one of its kind; a diagram grows if
both of its tables do.
-/

namespace ClassDiagram

namespace Table

/-! ## Declared names -/

theorem declared?_eq_some_iff (objects : Table Entity) (name : String) (index : Nat) :
    objects.declared? name = some index ↔
      (∃ e, objects.get? name = some e ∧ e.isPlaceholder = false) ∧
        objects.position name = index := by
  cases h : objects.get? name with
  | none => simp [declared?, h]
  | some e => simp [declared?, h]

theorem declared?_eq_none_iff (objects : Table Entity) (name : String) :
    objects.declared? name = none ↔
      ∀ e, objects.get? name = some e → e.isPlaceholder = true := by
  cases h : objects.get? name with
  | none => simp [declared?, h]
  | some e => simp [declared?, h]

/-- A declared name stands at its position. -/
theorem key?_of_declared? {objects : Table Entity} {name : String} {index : Nat}
    (h : objects.declared? name = some index) : objects.key? index = some name := by
  obtain ⟨⟨e, he, _⟩, rfl⟩ := (declared?_eq_some_iff objects name index).mp h
  exact key?_position he

/-! ## Growth of a table -/

/-- All keys keep their places, and all declarations their kinds. -/
structure Grows (t u : Table Entity) : Prop where
  keys : t.keys <+: u.keys
  kind : ∀ key e, t.get? key = some e → e.isPlaceholder = false →
    ∃ e', u.get? key = some e' ∧ e'.kind = e.kind

theorem Grows.refl (t : Table Entity) : t.Grows t :=
  ⟨List.prefix_refl _, fun _ e he _ => ⟨e, he, rfl⟩⟩

theorem Grows.trans {t u v : Table Entity} (h : t.Grows u) (h' : u.Grows v) : t.Grows v := by
  refine ⟨h.keys.trans h'.keys, ?_⟩
  intro key e he hd
  obtain ⟨e', he', hk⟩ := h.kind key e he hd
  have hd' : e'.isPlaceholder = false := by
    rw [Entity.declared_iff, hk, ← Entity.declared_iff]
    exact hd
  obtain ⟨e'', he'', hk'⟩ := h'.kind key e' he' hd'
  exact ⟨e'', he'', hk'.trans hk⟩

theorem Grows.key? {t u : Table Entity} (h : t.Grows u) {index : Nat} {key : String}
    (hk : t.key? index = some key) : u.key? index = some key :=
  key?_of_isPrefix h.keys hk

/-- What is declared stays declared, at the same position. -/
theorem Grows.declared? {t u : Table Entity} (h : t.Grows u) {name : String} {index : Nat}
    (hd : t.declared? name = some index) : u.declared? name = some index := by
  obtain ⟨⟨e, he, hp⟩, hi⟩ := (declared?_eq_some_iff t name index).mp hd
  obtain ⟨e', he', hk⟩ := h.kind name e he hp
  refine (declared?_eq_some_iff u name index).mpr ⟨⟨e', he', ?_⟩, ?_⟩
  · rw [Entity.declared_iff, hk, ← Entity.declared_iff]
    exact hp
  · rw [position_of_isPrefix h.keys (mem_keys_of_get? he), hi]

theorem Grows.insert {t : Table Entity} {key : String} {value : Entity}
    (h : ∀ e, t.get? key = some e → e.isPlaceholder = false → value.kind = e.kind) :
    t.Grows (t.insert key value) := by
  refine ⟨keys_prefix_insert t key value, ?_⟩
  intro other e he hd
  by_cases hk : other = key
  · subst hk
    exact ⟨value, by rw [get?_insert, if_pos rfl], h e he hd⟩
  · exact ⟨e, by rw [get?_insert, if_neg hk, he], rfl⟩

theorem Grows.ensure (t : Table Entity) (key : String) (value : Entity) :
    t.Grows (t.ensure key value) := by
  refine ⟨keys_prefix_ensure t key value, ?_⟩
  intro other e he _
  refine ⟨e, ?_, rfl⟩
  rw [get?_ensure]
  split
  · next hk => rw [← hk, he, Option.getD_some]
  · exact he

theorem Grows.map {f : Entity → Entity} (h : ∀ e, (f e).kind = e.kind) (t : Table Entity) :
    t.Grows (t.map f) := by
  refine ⟨keys_map f t ▸ List.prefix_refl _, ?_⟩
  intro key e he _
  exact ⟨f e, by rw [get?_map, he, Option.map_some], h e⟩

end Table

namespace Diagram

/-! ## References and ends -/

/-- All ends of all relations, in order. -/
def endpoints (d : Diagram) : List Endpoint :=
  d.relations.flatMap (·.ends)

/-- Every reference at an end of a relation denotes an entity. -/
def Closed (d : Diagram) : Prop :=
  ∀ e ∈ d.endpoints, ∀ ref ∈ e.ref?, (d.entity? ref).isSome = true

instance (d : Diagram) : Decidable d.Closed :=
  inferInstanceAs (Decidable (∀ e ∈ d.endpoints, ∀ ref ∈ e.ref?, (d.entity? ref).isSome = true))

theorem isSome_entity?_iff (d : Diagram) (ref : Ref) :
    (d.entity? ref).isSome = true ↔ ∃ key, d.key? ref = some key := by
  cases ref with
  | registered index => exact ⟨Table.key?_of_at?, fun ⟨_, hk⟩ => Table.isSome_at?_of_key? hk⟩
  | stub index => exact ⟨Table.key?_of_at?, fun ⟨_, hk⟩ => Table.isSome_at?_of_key? hk⟩

theorem Closed.key? {d : Diagram} (h : d.Closed) {ref : Ref} (he : .ref ref ∈ d.endpoints) :
    ∃ key, d.key? ref = some key :=
  (isSome_entity?_iff d ref).mp (h (.ref ref) he ref rfl)

theorem mem_endpoints_iff (d : Diagram) (e : Endpoint) :
    e ∈ d.endpoints ↔ ∃ r ∈ d.relations, e ∈ r.ends :=
  List.mem_flatMap

theorem key?_of_lookupDeclared {d : Diagram} {name : String} {ref : Ref}
    (h : d.lookupDeclared name = some ref) : d.key? ref = some name := by
  obtain ⟨index, hi, rfl⟩ := Option.map_eq_some_iff.mp h
  exact Table.key?_of_declared? hi

/-! ## Growth of a diagram -/

/-- Both tables grow. -/
structure Grows (d d' : Diagram) : Prop where
  objects : d.objects.Grows d'.objects
  stubs : d.stubs.Grows d'.stubs

theorem Grows.refl (d : Diagram) : d.Grows d :=
  ⟨Table.Grows.refl _, Table.Grows.refl _⟩

theorem Grows.trans {d d' d'' : Diagram} (h : d.Grows d') (h' : d'.Grows d'') : d.Grows d'' :=
  ⟨h.objects.trans h'.objects, h.stubs.trans h'.stubs⟩

theorem Grows.key? {d d' : Diagram} (h : d.Grows d') {ref : Ref} {key : String}
    (hk : d.key? ref = some key) : d'.key? ref = some key := by
  cases ref with
  | registered index => exact h.objects.key? hk
  | stub index => exact h.stubs.key? hk

theorem Grows.isSome_entity? {d d' : Diagram} (h : d.Grows d') {ref : Ref}
    (hr : (d.entity? ref).isSome = true) : (d'.entity? ref).isSome = true := by
  obtain ⟨key, hk⟩ := (isSome_entity?_iff d ref).mp hr
  exact (isSome_entity?_iff d' ref).mpr ⟨key, h.key? hk⟩

end Diagram

namespace Relation

@[simp] theorem ends_mapEnds (f : Endpoint → Endpoint) (r : Relation) :
    (r.mapEnds f).ends = r.ends.map f := rfl

theorem mapEnds_mapEnds (f g : Endpoint → Endpoint) (r : Relation) :
    (r.mapEnds f).mapEnds g = r.mapEnds fun e => g (f e) := rfl

theorem mapEnds_congr {f g : Endpoint → Endpoint} {r : Relation}
    (h : ∀ e ∈ r.ends, f e = g e) : r.mapEnds f = r.mapEnds g := by
  have ha : f r.a = g r.a := h r.a (by simp [ends])
  have hb : f r.b = g r.b := h r.b (by simp [ends])
  simp only [mapEnds, ha, hb]

end Relation

end ClassDiagram
