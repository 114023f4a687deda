import ClassDiagram.Proofs.FusionOrder
import ClassDiagram.Proofs.WellFormed
import Mathlib.Data.List.Forall2

/-!
# What edges are about after fusing

Fusing moves ends of relations: a stub may give way to a declaration, and
references of the second diagram are carried over by key. None of this changes
the name that an end is about, so every relation still says what it said in
the diagram it came from.
-/

namespace ClassDiagram

namespace Table

theorem named_iff (t : Table Entity) : t.Named ↔ ∀ entry ∈ t.entries, entry.2.name = entry.1 := by
  simp only [Named, ← mem_entries_iff, Prod.forall]

instance (t : Table Entity) : Decidable t.Named :=
  decidable_of_iff _ (named_iff t).symm

theorem Named.map_name_at? {t : Table Entity} (h : t.Named) (index : Nat) :
    (t.at? index).map (·.name) = t.key? index := by
  rw [at?_eq_bind]
  cases hk : t.key? index with
  | none => rfl
  | some key =>
      obtain ⟨e, he⟩ := (mem_keys_iff t key).mp (key?_mem hk)
      rw [Option.bind_some, he, Option.map_some, h key e he]

/-- What a fusion does not declare, neither side declares. -/
theorem IsFusion.declared?_eq_none {t u fused : Table Entity} (h : t.IsFusion u fused)
    {key : String} (hn : fused.declared? key = none) :
    t.declared? key = none ∧ u.declared? key = none := by
  rw [declared?_eq_none_iff] at hn
  simp only [declared?_eq_none_iff]
  have hj := h.get? key
  generalize t.get? key = present at hj
  generalize u.get? key = incoming at hj
  generalize fused.get? key = held at hj hn
  cases hj with
  | incoming => exact ⟨nofun, hn⟩
  | present => exact ⟨hn, nofun⟩
  | both hm =>
      have hp := hn _ rfl
      rw [Entity.isPlaceholder_of_merge hm, Bool.and_eq_true] at hp
      exact ⟨fun _ he => Option.some.inj he ▸ hp.1, fun _ he => Option.some.inj he ▸ hp.2⟩

end Table

/-- The kind with its payload stays, and both ends change as `R` allows. -/
def Relation.Follows (R : Endpoint → Endpoint → Prop) (r r' : Relation) : Prop :=
  r'.kind = r.kind ∧ R r.a r'.a ∧ R r.b r'.b

theorem Relation.follows_mapEnds {R : Endpoint → Endpoint → Prop} {f : Endpoint → Endpoint}
    {rs : List Relation} (h : ∀ e ∈ rs.flatMap (·.ends), R e (f e)) :
    List.Forall₂ (Follows R) rs (rs.map (·.mapEnds f)) := by
  rw [List.forall₂_map_right_iff, List.forall₂_same]
  intro r hr
  have hend : ∀ e ∈ r.ends, R e (f e) :=
    fun e he => h e (List.mem_flatMap.mpr ⟨r, hr, he⟩)
  exact ⟨rfl, hend r.a (by simp [ends]), hend r.b (by simp [ends])⟩

namespace Diagram

/-! ## Names at the ends -/

/-- Every end can be read: both tables hold each entity under its own name, and every reference
at an end denotes one. -/
structure Legible (d : Diagram) : Prop where
  objects : d.objects.Named
  stubs : d.stubs.Named
  closed : d.Closed

/-- Where entities are stored under their own names, a reference is about the key behind it. -/
theorem endpointName?_ref {d : Diagram} (ho : d.objects.Named) (hs : d.stubs.Named) (ref : Ref) :
    d.endpointName? (.ref ref) = d.key? ref := by
  cases ref with
  | registered index => exact ho.map_name_at? index
  | stub index => exact hs.map_name_at? index

theorem endpointName?_fusedWith_ref {d other : Diagram} {objects : Table Entity}
    (hd : d.Legible) (ho : other.Legible) (hf : d.objects.IsFusion other.objects objects)
    (ref : Ref) :
    (d.fusedWith other objects).endpointName? (.ref ref) = (d.fusedWith other objects).key? ref :=
  endpointName?_ref (d := d.fusedWith other objects) (hf.named hd.objects ho.objects) hd.stubs ref

theorem endpointName?_fusedWith_aim {d other : Diagram} {objects : Table Entity}
    (hd : d.Legible) (ho : other.Legible) (hf : d.objects.IsFusion other.objects objects)
    (name : String) :
    (d.fusedWith other objects).endpointName? (aim objects name) = some name := by
  cases hdecl : objects.declared? name with
  | none => rw [aim_of_not_declared hdecl]; rfl
  | some index =>
      rw [aim_of_declared? hdecl, endpointName?_fusedWith_ref hd ho hf]
      exact Table.key?_of_declared? hdecl

/-! ## Ends that fusing moves -/

/-- A stub gives way to the declaration of its name, and stays if there is none. -/
theorem settle_stub {objects stubs : Table Entity} {index : Nat} {name : String}
    (h : stubs.key? index = some name) :
    settle objects stubs (.ref (.stub index)) =
      match objects.declared? name with
      | some position => .ref (.registered position)
      | none => .ref (.stub index) := by
  cases hd : objects.declared? name with
  | none => simp [settle, h, hd]
  | some position => simp [settle, h, hd]

/-- Settled, a reference is still one to the same key. -/
theorem settle_ref {d other : Diagram} {objects : Table Entity} (hg : d.objects.Grows objects)
    {ref : Ref} {key : String} (hk : d.key? ref = some key) :
    ∃ ref', settle objects d.stubs (.ref ref) = .ref ref' ∧
      (d.fusedWith other objects).key? ref' = some key := by
  cases ref with
  | registered index => exact ⟨.registered index, rfl, hg.key? hk⟩
  | stub index =>
      have hs : d.stubs.key? index = some key := hk
      rw [settle_stub hs]
      cases hdecl : objects.declared? key with
      | none => exact ⟨.stub index, rfl, hs⟩
      | some position => exact ⟨.registered position, rfl, Table.key?_of_declared? hdecl⟩

theorem eq_of_settle_eq_stub {objects stubs : Table Entity} {e : Endpoint} {index : Nat}
    (h : settle objects stubs e = .ref (.stub index)) : e = .ref (.stub index) := by
  cases e with
  | name name => cases h
  | ref ref =>
      cases ref with
      | registered position => cases h
      | stub other =>
          cases hb : (stubs.key? other).bind objects.declared? with
          | some position => simp only [settle, hb] at h; cases h
          | none => simpa only [settle, hb] using h

theorem aim_ne_stub (objects : Table Entity) (name : String) (index : Nat) :
    aim objects name ≠ .ref (.stub index) := by
  unfold aim
  split <;> nofun

theorem not_atPlaceholder_aim (d : Diagram) (name : String) :
    ¬ d.AtPlaceholder (aim d.objects name) := by
  rintro ⟨index, held, he, hat, hp⟩
  cases hd : d.objects.declared? name with
  | none => rw [aim_of_not_declared hd] at he; cases he
  | some position =>
      rw [aim_of_declared? hd] at he
      cases he
      obtain ⟨⟨e, hg, hdecl⟩, _⟩ := (Table.declared?_eq_some_iff _ _ _).mp hd
      rw [Table.at?_of_key? (Table.key?_of_declared? hd), hg] at hat
      rw [Option.some.inj hat, hp] at hdecl
      cases hdecl

theorem endpoints_fusedWith (d other : Diagram) (objects : Table Entity) :
    (d.fusedWith other objects).endpoints =
      d.endpoints.map (settle objects d.stubs) ++
        other.endpoints.map (retarget objects other) := by
  simp only [endpoints, fusedWith, List.flatMap_append, List.map_flatMap, List.flatMap_map,
    Relation.ends_mapEnds]

/-! ## What becomes of an end -/

/-- What fusing `d` and `other` makes of an end of one of them: it is about the same name, and it
is a bare name only if it was one before or neither diagram declares the name. -/
structure KeepsEnd (d other fused source : Diagram) (e e' : Endpoint) : Prop where
  name : fused.endpointName? e' = source.endpointName? e
  bare : ∀ n, e' = .name n →
    e = .name n ∨ d.lookupDeclared n = none ∧ other.lookupDeclared n = none

/-- What fusing makes of an end of the second diagram: moreover, it ends neither at a stub nor at
a placeholder. -/
structure TakesEnd (d other fused : Diagram) (e e' : Endpoint) : Prop
    extends KeepsEnd d other fused other e e' where
  notStub : ∀ index, e' ≠ .ref (.stub index)
  notPlaceholder : ¬ fused.AtPlaceholder e'

section Ends

variable {d other : Diagram} {objects : Table Entity}

theorem keepsEnd_settle (hd : d.Legible) (ho : other.Legible)
    (hf : d.objects.IsFusion other.objects objects) {e : Endpoint} (he : e ∈ d.endpoints) :
    KeepsEnd d other (d.fusedWith other objects) d e (settle objects d.stubs e) := by
  cases e with
  | name name => exact ⟨rfl, fun n hn => Or.inl hn⟩
  | ref ref =>
      obtain ⟨key, hk⟩ := hd.closed.key? he
      obtain ⟨ref', hs, hk'⟩ : ∃ ref', settle objects d.stubs (.ref ref) = .ref ref' ∧
          (d.fusedWith other objects).key? ref' = some key := settle_ref hf.grows hk
      rw [hs]
      refine ⟨?_, nofun⟩
      rw [endpointName?_fusedWith_ref hd ho hf, hk', endpointName?_ref hd.objects hd.stubs, hk]

theorem takesEnd_retarget (hd : d.Legible) (ho : other.Legible)
    (hf : d.objects.IsFusion other.objects objects) {e : Endpoint} (he : e ∈ other.endpoints) :
    TakesEnd d other (d.fusedWith other objects) e (retarget objects other e) := by
  cases e with
  | name name =>
      refine ⟨⟨rfl, fun n hn => Or.inl hn⟩, nofun, ?_⟩
      rintro ⟨index, held, hend, _⟩
      cases hend
  | ref ref =>
      obtain ⟨key, hk⟩ := ho.closed.key? he
      rw [retarget_ref hk]
      refine ⟨⟨?_, ?_⟩, aim_ne_stub objects key, not_atPlaceholder_aim _ key⟩
      · rw [endpointName?_fusedWith_aim hd ho hf, endpointName?_ref ho.objects ho.stubs, hk]
      · intro n hn
        cases hdecl : objects.declared? key with
        | some position => rw [aim_of_declared? hdecl] at hn; cases hn
        | none =>
            rw [aim_of_not_declared hdecl] at hn
            cases hn
            obtain ⟨hleft, hright⟩ := hf.declared?_eq_none hdecl
            exact Or.inr ⟨by rw [lookupDeclared, hleft, Option.map_none],
              by rw [lookupDeclared, hright, Option.map_none]⟩

/-- A stub at an end of a fusion stands for a name that the fusion does not declare. -/
theorem lookupDeclared_of_stub_mem (hd : d.Legible) (ho : other.Legible)
    (hf : d.objects.IsFusion other.objects objects) {index : Nat} {name : String}
    (he : .ref (.stub index) ∈ (d.fusedWith other objects).endpoints)
    (hn : (d.fusedWith other objects).endpointName? (.ref (.stub index)) = some name) :
    (d.fusedWith other objects).lookupDeclared name = none := by
  rw [endpointName?_fusedWith_ref hd ho hf] at hn
  rw [endpoints_fusedWith, List.mem_append] at he
  rcases he with hown | htaken
  · obtain ⟨e, _, hs⟩ := List.mem_map.mp hown
    obtain rfl := eq_of_settle_eq_stub hs
    rw [settle_stub (show d.stubs.key? index = some name from hn)] at hs
    cases hdecl : objects.declared? name with
    | none => exact congrArg (Option.map Ref.registered) hdecl
    | some position => rw [hdecl] at hs; cases hs
  · obtain ⟨e, hmem, hs⟩ := List.mem_map.mp htaken
    exact absurd hs ((takesEnd_retarget hd ho hf hmem).notStub index)

end Ends

/-! ## What edges are about -/

/-- Fusing never changes what an edge is about. The relations of both diagrams follow each other
in order with the kinds and the payloads that they had, and each end is about the name that it
was about before. -/
theorem fuse_keeps_edges {d other fused : Diagram} (hd : d.Legible) (ho : other.Legible)
    (h : d.fuse other = .ok fused) :
    ∃ own taken, fused.relations = own ++ taken ∧
      List.Forall₂ (Relation.Follows (KeepsEnd d other fused d)) d.relations own ∧
      List.Forall₂ (Relation.Follows (TakesEnd d other fused)) other.relations taken ∧
      ∀ index name, .ref (.stub index) ∈ fused.endpoints →
        fused.endpointName? (.ref (.stub index)) = some name →
        fused.lookupDeclared name = none := by
  obtain ⟨objects, hf, rfl⟩ := fuse_eq_ok h
  exact ⟨_, _, rfl, Relation.follows_mapEnds fun _ he => keepsEnd_settle hd ho hf he,
    Relation.follows_mapEnds fun _ he => takesEnd_retarget hd ho hf he,
    fun _ _ he hn => lookupDeclared_of_stub_mem hd ho hf he hn⟩

/-- An invoice with ends of every sort: a placeholder, two stubs and a bare name. -/
def ledger : Diagram where
  objects := (Table.empty.insert "Invoice" (.ofKind .classKind "Invoice" [])).insert "Client"
    (.placeholder "Client")
  stubs := (Table.empty.insert "Tax" (.placeholder "Tax")).insert "Item" (.placeholder "Item")
  relations := [.associate (.registered 0) (.registered 1) (.ofRoleB "client"),
    .associate (.registered 0) (.stub 1) (.ofRoleB "items"),
    ⟨.ref (.registered 0), .ref (.stub 0), .implements⟩,
    ⟨.name "Shop", .ref (.registered 0), .inheritance⟩]

/-- An item in another order of the names, with ends at a placeholder and at a stub. -/
def stock : Diagram where
  objects := ((Table.empty.insert "Tax" (.placeholder "Tax")).insert "Item"
    (.ofKind .enumKind "Item" [])).insert "Client" (.ofKind .interfaceKind "Client" [])
  stubs := Table.empty.insert "Depot" (.placeholder "Depot")
  relations := [.associate (.registered 1) (.registered 0) (.ofRoleB "tax"),
    .associate (.registered 2) (.stub 0) (.ofRoleB "depot"),
    ⟨.ref (.registered 1), .ref (.registered 2), .implements⟩]

theorem legible_ledger : ledger.Legible :=
  ⟨by decide, by decide, by decide⟩

theorem legible_stock : stock.Legible :=
  ⟨by decide, by decide, by decide⟩

/-- Fused, the invoice gets the declared item in place of its stub and keeps the stub of the tax,
while the item is about a bare tax, which is a placeholder on its side. -/
theorem fuse_keeps_edges_ledger_stock :
    ledger.Legible ∧ stock.Legible ∧ ∃ fused, ledger.fuse stock = .ok fused ∧
      fused.endpoints =
        [.ref (.registered 0), .ref (.registered 1), .ref (.registered 0), .ref (.registered 3),
          .ref (.registered 0), .ref (.stub 0), .name "Shop", .ref (.registered 0),
          .ref (.registered 3), .name "Tax", .ref (.registered 1), .name "Depot",
          .ref (.registered 3), .ref (.registered 1)] ∧
      ∃ own taken, fused.relations = own ++ taken ∧
        List.Forall₂ (Relation.Follows (KeepsEnd ledger stock fused ledger)) ledger.relations own ∧
        List.Forall₂ (Relation.Follows (TakesEnd ledger stock fused)) stock.relations taken ∧
        ∀ index name, .ref (.stub index) ∈ fused.endpoints →
          fused.endpointName? (.ref (.stub index)) = some name →
          fused.lookupDeclared name = none :=
  ⟨legible_ledger, legible_stock, _, rfl, by decide,
    fuse_keeps_edges legible_ledger legible_stock rfl⟩

end Diagram

end ClassDiagram
