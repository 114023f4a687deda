import ClassDiagram.Proofs.Absorption

/-!
# A placeholder before and behind its declaration

A name can be mentioned before it is declared, or only later. The two orders
take different branches of the merge, and each branch keeps something else of
the placeholder: a declaration that comes second takes over its stereotypes, and
a declaration that comes first is given its package. So the result depends on
the order wherever the placeholder has a stereotype, or a package, that the
declaration lacks.
-/

namespace ClassDiagram

/-! ## One key -/

namespace Table

variable {α : Type}

/-- The table with one entry. -/
def single (key : String) (value : α) : Table α :=
  insert {} key value

@[simp] theorem get?_single (key : String) (value : α) : (single key value).get? key = some value :=
  (get?_insert {} key key value).trans (if_pos rfl)

@[simp] theorem position_single (key : String) (value : α) : (single key value).position key = 0 :=
  List.idxOf_cons_self

@[simp] theorem insert_single (key : String) (first second : α) :
    (single key first).insert key second = single key second :=
  Table.ext (if_pos rfl)

theorem single_inj (key : String) {first second : α} :
    single key first = single key second ↔ first = second := by
  constructor
  · intro h
    have hget := congrArg (get? · key) h
    rw [get?_single, get?_single] at hget
    exact Option.some.inj hget
  · rintro rfl
    rfl

end Table

theorem uniteTexts_eq_self_iff (present incoming : List String) :
    uniteTexts present incoming = present ↔ ∀ text ∈ incoming, text ∈ present := by
  rw [uniteTexts_eq_uniteBy]
  constructor
  · intro h text ht
    have hkey : id text ∈ (uniteBy id present incoming).map id :=
      (mem_map_uniteBy id present incoming text).mpr (Or.inr (List.mem_map_of_mem ht))
    rwa [h, List.map_id] at hkey
  · intro h
    apply uniteBy_of_forall_mem
    intro text ht
    exact List.mem_map_of_mem (h text ht)

/-! ## What is left of the placeholder -/

namespace Entity

/-- A declaration in the place of a placeholder. -/
def completing (d p : Entity) : Entity :=
  { d with stereotypes := uniteTexts d.stereotypes p.stereotypes }

/-- A declaration that a placeholder follows. -/
def absorbing (d p : Entity) : Entity :=
  { d with package := if d.package.isEmpty then p.package else d.package }

theorem completing_eq_absorbing_iff (d p : Entity) :
    d.completing p = d.absorbing p ↔
      (∀ text ∈ p.stereotypes, text ∈ d.stereotypes) ∧ (d.package = [] → p.package = []) := by
  have hfields : d.completing p = d.absorbing p ↔
      uniteTexts d.stereotypes p.stereotypes = d.stereotypes ∧
        d.package = if d.package.isEmpty then p.package else d.package := by
    simp only [completing, absorbing, mk.injEq, true_and, and_true]
    exact and_comm
  have hpackage : (d.package = if d.package.isEmpty then p.package else d.package) ↔
      (d.package = [] → p.package = []) := by
    cases d.package with
    | nil => exact ⟨fun h _ => h.symm, fun h => (h rfl).symm⟩
    | cons segment rest => exact ⟨fun _ h => (List.cons_ne_nil _ _ h).elim, fun _ => rfl⟩
  rw [hfields, hpackage, uniteTexts_eq_self_iff]

end Entity

/-! ## Both orders -/

namespace Diagram

variable {e other merged : Entity}

/-- The diagram with one registered entity. -/
def single (e : Entity) : Diagram :=
  { objects := Table.single e.name e }

theorem register_empty (e : Entity) : ({} : Diagram).register e = .ok (single e, .registered 0) :=
  rfl

/-- Registering an entity under the name of the only one there is a merge, unless both are
declarations. -/
theorem register_single (hn : other.name = e.name)
    (hp : e.isPlaceholder = true ∨ other.isPlaceholder = true) (hm : e.merge other = .ok merged) :
    (single e).register other =
      .ok ({ objects := Table.single e.name merged }, .registered 0) := by
  have hclash : ¬ (!e.isPlaceholder && !other.isPlaceholder) = true := by
    rcases hp with h | h <;> simp [h]
  simp only [register, single, hn, Table.get?_single, if_neg hclash, hm, Table.insert_single,
    Table.position_single]
  rfl

/-- Fusing two diagrams with one entity each, under one name, is a merge. -/
theorem fuse_single (hn : other.name = e.name) (hm : e.merge other = .ok merged) :
    (single e).fuse (single other) = .ok { objects := Table.single e.name merged } := by
  have hentries : (single other).objects.entries = [(e.name, other)] := by
    rw [← hn]
    rfl
  have hpresent : (single e).objects.get? e.name = some e := Table.get?_single e.name e
  have hconflict : [(e.name, other)].findSome? (conflict? (single e).objects) = none := by
    apply List.findSome?_eq_none_iff.mpr
    intro entry he
    obtain rfl := List.mem_singleton.mp he
    apply (conflict?_eq_none_iff _ _).mpr
    intro present hp
    obtain rfl := Option.some.inj (hpresent.symm.trans hp)
    exact ⟨merged, hm⟩
  have hmerge : mergeEntries (single e).objects [(e.name, other)] =
      .ok (Table.single e.name merged) := by
    apply mergeEntries_cons.mpr
    refine ⟨(single e).objects.insert e.name merged, ?_, ?_⟩
    · simp only [mergeEntry, hpresent, hm]
      rfl
    · exact congrArg Except.ok (Table.insert_single e.name e merged)
  simp only [fuse, hentries, hconflict, hmerge]
  rfl

variable {p d : Entity}

/-- Registering a placeholder and a declaration of its name works in either order, and fusing
gives the same as registering. The placeholder's package is lost if it comes first, and its
stereotypes are lost if it comes second: the two diagrams are equal only for a placeholder whose
stereotypes the declaration has too, and which has no package that the declaration lacks. -/
theorem placeholder_order (hp : p.isPlaceholder = true) (hd : d.isPlaceholder = false)
    (hn : p.name = d.name) :
    ∃ mentioned declared completed absorbed : Diagram,
      ({} : Diagram).register p = .ok (mentioned, .registered 0) ∧
      mentioned.register d = .ok (completed, .registered 0) ∧
      ({} : Diagram).register d = .ok (declared, .registered 0) ∧
      declared.register p = .ok (absorbed, .registered 0) ∧
      mentioned.fuse declared = .ok completed ∧
      declared.fuse mentioned = .ok absorbed ∧
      completed.objects.entries =
        [(d.name, { d with stereotypes := uniteTexts d.stereotypes p.stereotypes })] ∧
      absorbed.objects.entries =
        [(d.name, { d with package := if d.package = [] then p.package else d.package })] ∧
      (completed.objects = absorbed.objects ↔
        (∀ text ∈ p.stereotypes, text ∈ d.stereotypes) ∧ (d.package = [] → p.package = [])) := by
  have hcompleted : p.merge d = .ok (d.completing p) := Entity.merge_placeholder_left hp hd
  have habsorbed : d.merge p = .ok (d.absorbing p) := Entity.merge_placeholder_right hp
  refine ⟨single p, single d, { objects := Table.single p.name (d.completing p) },
    { objects := Table.single d.name (d.absorbing p) }, register_empty p,
    register_single hn.symm (Or.inl hp) hcompleted, register_empty d,
    register_single hn (Or.inr hp) habsorbed, fuse_single hn.symm hcompleted,
    fuse_single hn habsorbed, ?_, ?_, ?_⟩
  · rw [hn]
    rfl
  · simp only [Entity.absorbing, List.isEmpty_iff]
    rfl
  · rw [hn]
    exact (Table.single_inj d.name).trans (Entity.completing_eq_absorbing_iff d p)

/-- An order that is known as an entity of the shop before its declaration is read. -/
def mentionedOrder : Entity :=
  { Entity.ofKind .unresolved "Order" ["shop"] with stereotypes := ["entity"] }

/-- A declaration of the order that says neither. -/
def declaredOrder : Entity :=
  .ofKind .classKind "Order" []

/-- The order ends as an entity in no package, or in the shop without a stereotype. -/
theorem placeholder_order_declaredOrder :
    ∃ mentioned declared completed absorbed : Diagram,
      (({} : Diagram).register mentionedOrder = .ok (mentioned, .registered 0) ∧
        mentioned.register declaredOrder = .ok (completed, .registered 0)) ∧
      (({} : Diagram).register declaredOrder = .ok (declared, .registered 0) ∧
        declared.register mentionedOrder = .ok (absorbed, .registered 0)) ∧
      completed.objects.entries = [("Order", { declaredOrder with stereotypes := ["entity"] })] ∧
      absorbed.objects.entries = [("Order", { declaredOrder with package := ["shop"] })] ∧
      completed.objects ≠ absorbed.objects := by
  obtain ⟨mentioned, declared, completed, absorbed, hmentioned, hcompleted, hdeclared, habsorbed,
    _, _, hcompletedEntries, habsorbedEntries, hiff⟩ :=
      placeholder_order (p := mentionedOrder) (d := declaredOrder) rfl rfl rfl
  refine ⟨mentioned, declared, completed, absorbed, ⟨hmentioned, hcompleted⟩,
    ⟨hdeclared, habsorbed⟩, hcompletedEntries, habsorbedEntries, fun h => ?_⟩
  have hlost : "entity" ∈ declaredOrder.stereotypes := (hiff.mp h).1 "entity" List.mem_cons_self
  exact List.not_mem_nil hlost

/-- The order of registration can make a difference, and so can the direction of a fusion. -/
theorem not_forall_placeholder_order :
    (¬ ∀ (p d : Entity) (mentioned completed declared absorbed : Diagram) (r₁ r₂ r₃ r₄ : Ref),
      p.isPlaceholder = true → d.isPlaceholder = false → p.name = d.name →
        ({} : Diagram).register p = .ok (mentioned, r₁) →
        mentioned.register d = .ok (completed, r₂) →
        ({} : Diagram).register d = .ok (declared, r₃) →
        declared.register p = .ok (absorbed, r₄) →
        completed.objects = absorbed.objects) ∧
      ¬ ∀ (p d : Entity) (mentioned declared fused fused' : Diagram) (r₁ r₂ : Ref),
        p.isPlaceholder = true → d.isPlaceholder = false → p.name = d.name →
          ({} : Diagram).register p = .ok (mentioned, r₁) →
          ({} : Diagram).register d = .ok (declared, r₂) →
          mentioned.fuse declared = .ok fused → declared.fuse mentioned = .ok fused' →
          fused.objects = fused'.objects := by
  have hcompleted : mentionedOrder.merge declaredOrder =
      .ok (declaredOrder.completing mentionedOrder) := Entity.merge_placeholder_left rfl rfl
  have habsorbed : declaredOrder.merge mentionedOrder =
      .ok (declaredOrder.absorbing mentionedOrder) := Entity.merge_placeholder_right rfl
  have hne : Table.single "Order" (declaredOrder.completing mentionedOrder) ≠
      Table.single "Order" (declaredOrder.absorbing mentionedOrder) := by decide
  constructor
  · intro hall
    exact hne (hall mentionedOrder declaredOrder _ _ _ _ _ _ _ _ rfl rfl rfl
      (register_empty _) (register_single rfl (Or.inl rfl) hcompleted)
      (register_empty _) (register_single rfl (Or.inr rfl) habsorbed))
  · intro hall
    exact hne (hall mentionedOrder declaredOrder _ _ _ _ _ _ rfl rfl rfl
      (register_empty _) (register_empty _) (fuse_single rfl hcompleted)
      (fuse_single rfl habsorbed))

end Diagram

end ClassDiagram
