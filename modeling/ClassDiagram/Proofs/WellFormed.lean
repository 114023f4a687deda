import ClassDiagram.Proofs.Fusion
import ClassDiagram.Proofs.Pipeline

/-!
# Well-formed diagrams

What every operation relies on and restores: both tables hold each entity
under its own name, stubs are placeholders, and no end of a relation refers to
nothing. Each operation also lets the diagram grow, which is why ends that
were there before keep what they refer to.
-/

namespace ClassDiagram

namespace Table

/-- Every entity is stored under its own name. -/
def Named (t : Table Entity) : Prop :=
  ∀ key e, t.get? key = some e → e.name = key

theorem Named.insert {t : Table Entity} (h : t.Named) {key : String} {value : Entity}
    (hv : value.name = key) : (t.insert key value).Named := by
  intro other e he
  rw [get?_insert] at he
  split at he
  · next hk => rw [hk, ← hv, Option.some.inj he]
  · exact h other e he

theorem Named.ensure {t : Table Entity} (h : t.Named) (name : String) :
    (t.ensure name (.placeholder name)).Named := by
  unfold Table.ensure
  split
  · exact h
  · exact h.insert rfl

theorem Named.map {f : Entity → Entity} (hf : ∀ e, (f e).name = e.name) {t : Table Entity}
    (h : t.Named) : (t.map f).Named := by
  intro key e he
  rw [get?_map] at he
  obtain ⟨e', he', rfl⟩ := Option.map_eq_some_iff.mp he
  rw [hf, h key e' he']

theorem IsFusion.named {t u fused : Table Entity} (h : t.IsFusion u fused) (ht : t.Named)
    (hu : u.Named) : fused.Named := by
  intro key merged hm
  have hj := h.get? key
  rw [hm] at hj
  exact hj.name (ht key) (hu key)

/-- Every entity is a placeholder. -/
def Placeholders (t : Table Entity) : Prop :=
  ∀ key e, t.get? key = some e → e.isPlaceholder = true

theorem Placeholders.ensure {t : Table Entity} (h : t.Placeholders) (name : String) :
    (t.ensure name (.placeholder name)).Placeholders := by
  intro key e he
  rw [get?_ensure] at he
  split at he
  · next hk =>
      cases hg : t.get? name with
      | none =>
          rw [hg] at he
          cases he
          rfl
      | some held =>
          rw [hg] at he
          cases he
          exact h name held hg
  · exact h key e he

end Table

namespace Entity

theorem name_extended (e : Entity) : e.extended.name = e.name := rfl

theorem name_markImportant (e : Entity) : e.markImportant.name = e.name := rfl

end Entity

theorem Settings.name_finish (s : Settings) (e : Entity) : (s.finish e).name = e.name := by
  unfold finish flag access
  split <;> split <;> rfl

namespace Diagram

/-! ## References that stay valid -/

/-- The references at the ends of a relation denote entities. -/
def Holds (d : Diagram) (r : Relation) : Prop :=
  ∀ e ∈ r.ends, ∀ ref ∈ e.ref?, (d.entity? ref).isSome = true

instance (d : Diagram) (r : Relation) : Decidable (d.Holds r) :=
  inferInstanceAs (Decidable (∀ e ∈ r.ends, ∀ ref ∈ e.ref?, (d.entity? ref).isSome = true))

theorem closed_iff (d : Diagram) : d.Closed ↔ ∀ r ∈ d.relations, d.Holds r := by
  simp only [Closed, Holds, mem_endpoints_iff]
  constructor
  · intro h r hr e he
    exact h e ⟨r, hr, he⟩
  · rintro h e ⟨r, hr, he⟩
    exact h r hr e he

theorem Grows.holds {d d' : Diagram} (hg : d.Grows d') {r : Relation} (h : d.Holds r) :
    d'.Holds r :=
  fun e he ref hr => hg.isSome_entity? (h e he ref hr)

/-- Growth alone keeps a diagram closed. -/
theorem Closed.of_grows {d d' : Diagram} (h : d.Closed) (hg : d.Grows d')
    (hr : d'.relations = d.relations) : d'.Closed := by
  rw [closed_iff] at h ⊢
  rw [hr]
  exact fun r hm => hg.holds (h r hm)

/-- A relation still refers to entities if each of its ends does so after the change. -/
theorem holds_mapEnds {d : Diagram} {f : Endpoint → Endpoint} {r : Relation}
    (h : ∀ e ∈ r.ends, ∀ ref ∈ (f e).ref?, (d.entity? ref).isSome = true) :
    d.Holds (r.mapEnds f) := by
  intro e he
  rw [Relation.ends_mapEnds] at he
  obtain ⟨before, hb, rfl⟩ := List.mem_map.mp he
  exact h before hb

theorem isSome_entity?_of_declared? {d : Diagram} {name : String} {index : Nat}
    (h : d.objects.declared? name = some index) :
    (d.entity? (.registered index)).isSome = true :=
  (isSome_entity?_iff d _).mpr ⟨name, Table.key?_of_declared? h⟩

theorem closed_resolve {d : Diagram} (h : d.Closed) : d.resolve.Closed := by
  intro after ha ref hr
  rw [endpoints_resolve] at ha
  obtain ⟨e, he, rfl⟩ := List.mem_map.mp ha
  cases e with
  | ref before => exact (grows_resolve d).isSome_entity? (h _ he ref hr)
  | name name =>
      obtain ⟨ref', key, hlink, hk, _⟩ := settled_link_name he
      rw [hlink] at hr
      rw [← Option.some.inj hr]
      exact (isSome_entity?_iff _ _).mpr ⟨key, hk⟩

/-! ## Growth under the operations -/

theorem grows_stub (d : Diagram) (name : String) : d.Grows (d.stub name).1 :=
  ⟨Table.Grows.refl _, Table.Grows.ensure _ _ _⟩

theorem grows_associate (d : Diagram) (s : AssociationSettings) : d.Grows (d.associate s) := by
  constructor
  · rw [objects_associate]
    exact Table.Grows.refl _
  · rw [stubs_associate]
    exact Table.Grows.refl _

theorem grows_mapObjects {f : Entity → Entity} (hf : ∀ e, (f e).kind = e.kind) (d : Diagram) :
    d.Grows { d with objects := d.objects.map f } :=
  ⟨Table.Grows.map hf _, Table.Grows.refl _⟩

theorem grows_outcome (s : Settings) (d : Diagram) : d.Grows (d.outcome s) := by
  have hg := ((grows_resolve d).trans (grows_associate d.resolve s.association)).trans
    (grows_mapObjects s.kind_finish _)
  rwa [objects_associate, objects_resolve] at hg

/-! ## Fusing -/

theorem isSome_entity?_settle {d other : Diagram} {objects : Table Entity}
    (hg : d.Grows (d.fusedWith other objects)) {e : Endpoint}
    (h : ∀ ref ∈ e.ref?, (d.entity? ref).isSome = true) :
    ∀ ref ∈ (settle objects d.stubs e).ref?,
      ((d.fusedWith other objects).entity? ref).isSome = true := by
  intro ref hr
  cases e with
  | name name => cases hr
  | ref before =>
      cases before with
      | registered index => exact hg.isSome_entity? (h ref hr)
      | stub index =>
          cases hb : (d.stubs.key? index).bind objects.declared? with
          | none =>
              simp only [settle, hb] at hr
              exact hg.isSome_entity? (h ref hr)
          | some position =>
              obtain ⟨_, _, hd⟩ := Option.bind_eq_some_iff.mp hb
              simp only [settle, hb] at hr
              rw [← Option.some.inj hr]
              exact isSome_entity?_of_declared? (d := d.fusedWith other objects) hd

/-- Carried over by its key, a reference denotes a declaration or becomes a bare name. -/
theorem isSome_entity?_retarget {d other : Diagram} {objects : Table Entity} {e : Endpoint}
    (h : ∀ ref ∈ e.ref?, (other.entity? ref).isSome = true) :
    ∀ ref ∈ (retarget objects other e).ref?,
      ((d.fusedWith other objects).entity? ref).isSome = true := by
  intro ref hr
  cases e with
  | name name => cases hr
  | ref before =>
      obtain ⟨key, hk⟩ := (isSome_entity?_iff other before).mp (h before rfl)
      cases hd : objects.declared? key with
      | none =>
          simp only [retarget, hk, hd] at hr
          cases hr
      | some position =>
          simp only [retarget, hk, hd] at hr
          rw [← Option.some.inj hr]
          exact isSome_entity?_of_declared? (d := d.fusedWith other objects) hd

theorem closed_of_fuse {d other fused : Diagram} (h : d.fuse other = .ok fused) (hd : d.Closed)
    (ho : other.Closed) : fused.Closed := by
  have hg := grows_of_fuse h
  obtain ⟨objects, _, rfl⟩ := fuse_eq_ok h
  rw [closed_iff] at hd ho ⊢
  intro r hr
  rcases List.mem_append.mp hr with hr | hr
  · obtain ⟨before, hb, rfl⟩ := List.mem_map.mp hr
    exact holds_mapEnds fun e he => isSome_entity?_settle hg (hd before hb e he)
  · obtain ⟨before, hb, rfl⟩ := List.mem_map.mp hr
    exact holds_mapEnds fun e he => isSome_entity?_retarget (ho before hb e he)

/-! ## The invariant -/

/-- Entities are stored under their own names, stubs are placeholders, and every reference at an
end of a relation denotes an entity. -/
structure WellFormed (d : Diagram) : Prop where
  objects : d.objects.Named
  stubs : d.stubs.Named
  placeholders : d.stubs.Placeholders
  closed : d.Closed

theorem wellFormed_empty : ({} : Diagram).WellFormed where
  objects := fun _ _ he => nomatch he
  stubs := fun _ _ he => nomatch he
  placeholders := fun _ _ he => nomatch he
  closed := fun _ he => nomatch he

/-- An entity is registered under its name, as it is or merged into what is there. -/
theorem register_eq_ok {d d' : Diagram} {e : Entity} {ref : Ref}
    (h : d.register e = .ok (d', ref)) :
    ∃ value, Joined (d.objects.get? e.name) (some e) (some value) ∧
      d' = { d with objects := d.objects.insert e.name value } := by
  cases hp : d.objects.get? e.name with
  | none =>
      simp only [register, hp, Except.ok.injEq, Prod.mk.injEq] at h
      exact ⟨e, .incoming _, h.1.symm⟩
  | some present =>
      simp only [register, hp] at h
      split at h
      · cases h
      · cases hm : present.merge e with
        | error _ => rw [hm] at h; cases h
        | ok merged =>
            rw [hm] at h
            exact ⟨merged, .both hm, (Prod.mk.inj (Except.ok.inj h)).1.symm⟩

theorem grows_of_register {d d' : Diagram} {e : Entity} {ref : Ref}
    (h : d.register e = .ok (d', ref)) : d.Grows d' := by
  obtain ⟨value, hj, rfl⟩ := register_eq_ok h
  refine ⟨Table.Grows.insert ?_, Table.Grows.refl _⟩
  intro present hp hd
  rw [hp] at hj
  obtain ⟨merged, hmerged, hk⟩ := hj.kind hd
  rw [Option.some.inj hmerged, hk]

namespace WellFormed

variable {d : Diagram}

theorem register {d' : Diagram} {e : Entity} {ref : Ref} (h : d.WellFormed)
    (hr : d.register e = .ok (d', ref)) : d'.WellFormed := by
  have hg := grows_of_register hr
  obtain ⟨value, hj, rfl⟩ := register_eq_ok hr
  have hname : value.name = e.name :=
    hj.name (h.objects e.name) fun _ he => Option.some.inj he ▸ rfl
  exact ⟨h.objects.insert hname, h.stubs, h.placeholders, h.closed.of_grows hg rfl⟩

theorem stub (h : d.WellFormed) (name : String) : (d.stub name).1.WellFormed where
  objects := h.objects
  stubs := h.stubs.ensure name
  placeholders := h.placeholders.ensure name
  closed := h.closed.of_grows (grows_stub d name) rfl

theorem relate (h : d.WellFormed) {r : Relation} (hr : d.Holds r) : (d.relate r).WellFormed where
  objects := h.objects
  stubs := h.stubs
  placeholders := h.placeholders
  closed := by
    rw [closed_iff]
    intro r' hr'
    rcases List.mem_append.mp hr' with hold | hnew
    · exact (closed_iff d).mp h.closed r' hold
    · rw [List.mem_singleton.mp hnew]
      exact hr

theorem report (h : d.WellFormed) (diagnostic : Diagnostic) : (d.report diagnostic).WellFormed :=
  ⟨h.objects, h.stubs, h.placeholders, h.closed⟩

theorem resolve (h : d.WellFormed) : d.resolve.WellFormed := by
  have hstubs (names : List String) (stubs : Table Entity) (hn : stubs.Named)
      (hp : stubs.Placeholders) :
      (ensureStubs stubs names).Named ∧ (ensureStubs stubs names).Placeholders := by
    induction names generalizing stubs with
    | nil => exact ⟨hn, hp⟩
    | cons name rest ih => exact ih _ (hn.ensure name) (hp.ensure name)
  obtain ⟨hn, hp⟩ := hstubs d.missingNames d.stubs h.stubs h.placeholders
  exact ⟨h.objects, hn, hp, closed_resolve h.closed⟩

theorem associate (h : d.WellFormed) (s : AssociationSettings) : (d.associate s).WellFormed where
  objects := by rw [objects_associate]; exact h.objects
  stubs := by rw [stubs_associate]; exact h.stubs
  placeholders := by rw [stubs_associate]; exact h.placeholders
  closed := closed_associate h.closed s

/-- A change of entities that keeps their names and kinds keeps the diagram well-formed. -/
theorem mapObjects (h : d.WellFormed) {f : Entity → Entity} (hn : ∀ e, (f e).name = e.name)
    (hk : ∀ e, (f e).kind = e.kind) : { d with objects := d.objects.map f }.WellFormed where
  objects := h.objects.map hn
  stubs := h.stubs
  placeholders := h.placeholders
  closed := h.closed.of_grows (grows_mapObjects hk d) rfl

theorem outcome (h : d.WellFormed) (s : Settings) : (d.outcome s).WellFormed := by
  have hw := (h.resolve.associate s.association).mapObjects s.name_finish s.kind_finish
  rwa [objects_associate, objects_resolve] at hw

theorem fuse {other fused : Diagram} (h : d.WellFormed) (ho : other.WellFormed)
    (hf : d.fuse other = .ok fused) : fused.WellFormed := by
  have hc := closed_of_fuse hf h.closed ho.closed
  obtain ⟨objects, hfusion, rfl⟩ := fuse_eq_ok hf
  exact ⟨hfusion.named h.objects ho.objects, h.stubs, h.placeholders, hc⟩

end WellFormed

end Diagram

end ClassDiagram
