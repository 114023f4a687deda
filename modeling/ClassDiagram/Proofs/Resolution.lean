import ClassDiagram.Diagram.Resolution
import ClassDiagram.Proofs.Growth

/-!
# What resolution leaves at the ends of relations

Resolution replaces each bare name and nothing else. A name ends at its
declaration or at its stub, so afterwards the only ends that are neither
declared nor stubs are references to registered placeholders, and these stood
there before.
-/

namespace ClassDiagram

namespace Diagram

@[simp] theorem objects_resolve (d : Diagram) : d.resolve.objects = d.objects := rfl

/-! ## Missing names and their stubs -/

theorem mem_pendingNames (d : Diagram) (name : String) :
    name ∈ d.pendingNames ↔ .name name ∈ d.endpoints := by
  rw [pendingNames, List.mem_filterMap]
  constructor
  · rintro ⟨e, he, hp⟩
    cases e with
    | name n => cases hp; exact he
    | ref _ => cases hp
  · intro h
    exact ⟨.name name, h, rfl⟩

theorem mem_missingNames (d : Diagram) (name : String) :
    name ∈ d.missingNames ↔ .name name ∈ d.endpoints ∧ d.lookupDeclared name = none := by
  rw [missingNames, List.mem_eraseDups, List.mem_filter, mem_pendingNames,
    Option.isNone_iff_eq_none]

theorem mem_keys_ensureStubs (stubs : Table Entity) (names : List String) (key : String) :
    key ∈ (ensureStubs stubs names).keys ↔ key ∈ stubs.keys ∨ key ∈ names := by
  induction names generalizing stubs with
  | nil => simp [ensureStubs]
  | cons name rest ih =>
      change key ∈ (ensureStubs (stubs.ensure name (.placeholder name)) rest).keys ↔ _
      rw [ih, Table.keys_ensure, List.mem_cons]
      by_cases hn : name ∈ stubs.keys
      · rw [if_pos hn]
        constructor
        · rintro (h | h)
          · exact Or.inl h
          · exact Or.inr (Or.inr h)
        · rintro (h | rfl | h)
          · exact Or.inl h
          · exact Or.inl hn
          · exact Or.inr h
      · rw [if_neg hn, List.mem_append, List.mem_singleton, or_assoc]

theorem grows_ensureStubs (stubs : Table Entity) (names : List String) :
    stubs.Grows (ensureStubs stubs names) := by
  induction names generalizing stubs with
  | nil => exact Table.Grows.refl stubs
  | cons name rest ih =>
      exact (Table.Grows.ensure stubs name (.placeholder name)).trans (ih _)

theorem grows_resolve (d : Diagram) : d.Grows d.resolve :=
  ⟨Table.Grows.refl _, grows_ensureStubs _ _⟩

/-- A name at an end that has no declaration has a stub after resolution. -/
theorem key?_stub_of_missing {d : Diagram} {name : String} (he : .name name ∈ d.endpoints)
    (hd : d.objects.declared? name = none) :
    d.resolve.stubs.key? (d.resolve.stubs.position name) = some name := by
  apply Table.key?_position_of_mem
  refine (mem_keys_ensureStubs d.stubs d.missingNames name).mpr (Or.inr ?_)
  exact (mem_missingNames d name).mpr ⟨he, by rw [lookupDeclared, hd, Option.map_none]⟩

/-! ## Ends that resolution does not tell apart -/

/-- The declaration of a name, or the bare name where there is none. -/
def aim (objects : Table Entity) (name : String) : Endpoint :=
  match objects.declared? name with
  | some position => .ref (.registered position)
  | none => .name name

/-- Move a bare name to its declaration if it has one. -/
def aimEnd (objects : Table Entity) : Endpoint → Endpoint
  | .name name => aim objects name
  | .ref ref => .ref ref

theorem aim_of_declared? {objects : Table Entity} {name : String} {index : Nat}
    (h : objects.declared? name = some index) : aim objects name = .ref (.registered index) := by
  simp only [aim, h]

theorem aim_of_not_declared {objects : Table Entity} {name : String}
    (h : objects.declared? name = none) : aim objects name = .name name := by
  simp only [aim, h]

/-- An end that was aimed in a smaller table is aimed again in a larger one. -/
theorem aimEnd_aim {t u : Table Entity} (h : t.Grows u) (name : String) :
    aimEnd u (aim t name) = aim u name := by
  cases hd : t.declared? name with
  | none => rw [aim_of_not_declared hd, aimEnd]
  | some index => rw [aim_of_declared? hd, aimEnd, aim_of_declared? (h.declared? hd)]

theorem link_aimEnd (objects stubs : Table Entity) (e : Endpoint) :
    link objects stubs (aimEnd objects e) = link objects stubs e := by
  cases e with
  | ref _ => rfl
  | name name =>
      cases hd : objects.declared? name with
      | none => rw [aimEnd, aim_of_not_declared hd]
      | some index => simp only [aimEnd, aim_of_declared? hd, link, hd]

/-- The name of an end that resolution has to report. -/
def missing? (objects : Table Entity) (e : Endpoint) : Option String :=
  e.pending?.filter fun name => (objects.declared? name).isNone

theorem missingNames_eq (d : Diagram) :
    d.missingNames = (d.endpoints.filterMap (missing? d.objects)).eraseDups := by
  simp only [missingNames, pendingNames, List.filter_filterMap, lookupDeclared, Option.isNone_map]
  rfl

theorem missing?_aimEnd (objects : Table Entity) (e : Endpoint) :
    missing? objects (aimEnd objects e) = missing? objects e := by
  cases e with
  | ref _ => rfl
  | name name =>
      cases hd : objects.declared? name with
      | none => rw [aimEnd, aim_of_not_declared hd]
      | some index =>
          rw [aimEnd, aim_of_declared? hd]
          simp [missing?, Endpoint.pending?, Option.filter_some, hd]

/-- The diagram with all names that have a declaration moved there. -/
def aimed (d : Diagram) : Diagram :=
  { d with relations := d.relations.map (·.mapEnds (aimEnd d.objects)) }

theorem objects_aimed (d : Diagram) : d.aimed.objects = d.objects := rfl

theorem endpoints_aimed (d : Diagram) :
    d.aimed.endpoints = d.endpoints.map (aimEnd d.objects) := by
  simp only [endpoints, List.map_flatMap]
  exact List.flatMap_map ..

theorem missingNames_aimed (d : Diagram) : d.aimed.missingNames = d.missingNames := by
  have hf : missing? d.objects ∘ aimEnd d.objects = missing? d.objects :=
    funext (missing?_aimEnd d.objects)
  rw [missingNames_eq, missingNames_eq, endpoints_aimed, objects_aimed, List.filterMap_map, hf]

theorem resolve_aimed (d : Diagram) : d.aimed.resolve = d.resolve := by
  have hr (stubs : Table Entity) : d.aimed.relations.map (·.mapEnds (link d.objects stubs)) =
      d.relations.map (·.mapEnds (link d.objects stubs)) := by
    simp only [aimed, List.map_map, Function.comp_def, Relation.mapEnds_mapEnds, link_aimEnd]
  simp only [resolve, missingNames_aimed]
  exact congrArg (fun relations => { d.resolve with relations := relations }) (hr _)

/-- Resolution gives the same for diagrams that differ at most in names that were moved to
their declarations. -/
theorem resolve_congr {d d' : Diagram} (ho : d.objects = d'.objects) (hs : d.stubs = d'.stubs)
    (hr : d.relations.map (·.mapEnds (aimEnd d.objects)) =
      d'.relations.map (·.mapEnds (aimEnd d.objects)))
    (hd : d.diagnostics = d'.diagnostics) (hi : d.inferred = d'.inferred) :
    d.resolve = d'.resolve := by
  have haimed : d.aimed = d'.aimed := by
    rw [aimed, aimed, hr, ← ho]
    cases d
    cases d'
    simp_all
  rw [← resolve_aimed d, haimed, resolve_aimed]

/-! ## The ends after resolution -/

theorem endpoints_resolve (d : Diagram) :
    d.resolve.endpoints = d.endpoints.map (link d.objects d.resolve.stubs) := by
  simp only [endpoints, List.map_flatMap]
  exact List.flatMap_map ..

/-- The end is at a declaration, found under the name it is registered under, or at a stub. -/
def Settled (d : Diagram) (e : Endpoint) : Prop :=
  ∃ ref name, e = .ref ref ∧ d.key? ref = some name ∧
    (ref.isStub = true ∨ d.lookupDeclared name = some ref)

/-- The end refers to a registered placeholder that no declaration has completed. -/
def AtPlaceholder (d : Diagram) (e : Endpoint) : Prop :=
  ∃ index held, e = .ref (.registered index) ∧ d.objects.at? index = some held ∧
    held.isPlaceholder = true

theorem not_settled_of_atPlaceholder {d : Diagram} {e : Endpoint} (h : d.AtPlaceholder e) :
    ¬ d.Settled e := by
  obtain ⟨index, held, rfl, hat, hp⟩ := h
  rintro ⟨ref, name, he, hk, hs⟩
  cases he
  obtain ⟨key, hkey, hheld⟩ := (Table.at?_eq_some_iff _ _ _).mp hat
  have hname : name = key := Option.some.inj (hk.symm.trans hkey)
  have hnone : d.objects.declared? name = none := by
    refine (Table.declared?_eq_none_iff _ _).mpr ?_
    intro e' he'
    rw [hname, hheld] at he'
    exact Option.some.inj he' ▸ hp
  rcases hs with hs | hs
  · cases hs
  · rw [lookupDeclared, hnone] at hs
    cases hs

/-- A reference that denotes an entity is settled or at a placeholder. -/
theorem settled_or_atPlaceholder {d : Diagram} {ref : Ref} {key : String}
    (hk : d.key? ref = some key) : d.Settled (.ref ref) ∨ d.AtPlaceholder (.ref ref) := by
  cases ref with
  | stub index => exact Or.inl ⟨.stub index, key, rfl, hk, Or.inl rfl⟩
  | registered index =>
      obtain ⟨held, hheld⟩ := (Table.mem_keys_iff d.objects key).mp (Table.key?_mem hk)
      cases hp : held.isPlaceholder with
      | true => exact Or.inr ⟨index, held, rfl, by rw [Table.at?_of_key? hk, hheld], hp⟩
      | false =>
          have hd : d.objects.declared? key = some index :=
            (Table.declared?_eq_some_iff _ _ _).mpr ⟨⟨held, hheld, hp⟩, Table.position_of_key? hk⟩
          exact Or.inl ⟨.registered index, key, rfl, hk,
            Or.inr (by rw [lookupDeclared, hd, Option.map_some])⟩

theorem settled_link_name {d : Diagram} {name : String} (he : .name name ∈ d.endpoints) :
    d.resolve.Settled (link d.objects d.resolve.stubs (.name name)) := by
  cases hd : d.objects.declared? name with
  | some index =>
      have hl : d.lookupDeclared name = some (.registered index) := by
        rw [lookupDeclared, hd, Option.map_some]
      simp only [link, hd]
      exact ⟨.registered index, name, rfl, key?_of_lookupDeclared hl, Or.inr hl⟩
  | none =>
      simp only [link, hd]
      exact ⟨.stub _, name, rfl, key?_stub_of_missing he hd, Or.inl rfl⟩

/-- Of a closed diagram, exactly the ends at registered placeholders are not settled by
resolution, and these do not change. -/
theorem settled_link_iff {d : Diagram} (h : d.Closed) {e : Endpoint} (he : e ∈ d.endpoints) :
    (d.resolve.Settled (link d.objects d.resolve.stubs e) ↔ ¬ d.AtPlaceholder e) ∧
      (d.AtPlaceholder e → link d.objects d.resolve.stubs e = e ∧ d.resolve.AtPlaceholder e) := by
  cases e with
  | name name =>
      have hn : ¬ d.AtPlaceholder (.name name) := by
        rintro ⟨index, held, hname, _⟩
        cases hname
      exact ⟨iff_of_true (settled_link_name he) hn, fun hp => absurd hp hn⟩
  | ref ref =>
      have hplaced : d.resolve.AtPlaceholder (.ref ref) ↔ d.AtPlaceholder (.ref ref) := Iff.rfl
      obtain ⟨key, hk⟩ := h.key? he
      constructor
      · constructor
        · intro hs hp
          exact not_settled_of_atPlaceholder (hplaced.mpr hp) hs
        · intro hp
          rcases settled_or_atPlaceholder ((grows_resolve d).key? hk) with hs | hp'
          · exact hs
          · exact absurd (hplaced.mp hp') hp
      · intro hp
        exact ⟨rfl, hplaced.mpr hp⟩

/-- Resolution settles a closed diagram exactly if no end of it refers to a registered
placeholder; end by end, it settles all others and leaves these as they are. -/
theorem forall_settled_resolve_iff {d : Diagram} (h : d.Closed) :
    ((∀ e ∈ d.resolve.endpoints, d.resolve.Settled e) ↔
        ∀ e ∈ d.endpoints, ¬ d.AtPlaceholder e) ∧
      ∀ (index : Nat) (before : Endpoint), d.endpoints[index]? = some before →
        ∃ after, d.resolve.endpoints[index]? = some after ∧
          (d.resolve.Settled after ↔ ¬ d.AtPlaceholder before) ∧
          (d.AtPlaceholder before → after = before ∧ d.resolve.AtPlaceholder after) := by
  rw [endpoints_resolve]
  constructor
  · rw [List.forall_mem_map]
    exact forall₂_congr fun e he => (settled_link_iff h he).1
  · intro index before hb
    obtain ⟨hs, hp⟩ := settled_link_iff h (List.mem_of_getElem? hb)
    refine ⟨link d.objects d.resolve.stubs before, by rw [List.getElem?_map, hb]; rfl, hs, ?_⟩
    intro hat
    rw [(hp hat).1]
    exact ⟨rfl, (hp hat).2⟩

/-- A relation from the name of a placeholder to the placeholder itself. -/
def halfDeclared : Diagram where
  objects := Table.empty.insert "B" (.placeholder "B")
  relations := [⟨.name "B", .ref (.registered 0), .inheritance⟩]

theorem atPlaceholder_halfDeclared : halfDeclared.AtPlaceholder (.ref (.registered 0)) :=
  ⟨0, .placeholder "B", rfl, by decide, by decide⟩

/-- The end at the placeholder is found unsettled, as the theorem says. -/
theorem not_settled_halfDeclared :
    halfDeclared.Closed ∧ halfDeclared.endpoints[1]? = some (.ref (.registered 0)) ∧
      ∃ after, halfDeclared.resolve.endpoints[1]? = some after ∧
        ¬ halfDeclared.resolve.Settled after := by
  have hc : halfDeclared.Closed := by decide
  have hb : halfDeclared.endpoints[1]? = some (.ref (.registered 0)) := by decide
  obtain ⟨after, ha, hs, _⟩ := (forall_settled_resolve_iff hc).2 1 _ hb
  exact ⟨hc, hb, after, ha, fun h => hs.mp h atPlaceholder_halfDeclared⟩

/-- Registering a placeholder and relating its name to the reference that was returned gives a
closed diagram with an end that resolution leaves at the placeholder. -/
theorem not_forall_settled_resolve :
    ({} : Diagram).register (.placeholder "B") =
        .ok ({ objects := Table.empty.insert "B" (.placeholder "B") }, .registered 0) ∧
      halfDeclared = Diagram.relate { objects := Table.empty.insert "B" (.placeholder "B") }
        ⟨.name "B", .ref (.registered 0), .inheritance⟩ ∧
      halfDeclared.Closed ∧
      halfDeclared.resolve.endpoints = [.ref (.stub 0), .ref (.registered 0)] ∧
      ¬ ∀ e ∈ halfDeclared.resolve.endpoints, halfDeclared.resolve.Settled e := by
  have he : halfDeclared.resolve.endpoints = [.ref (.stub 0), .ref (.registered 0)] := by decide
  refine ⟨rfl, rfl, by decide, he, ?_⟩
  intro hall
  have hp : halfDeclared.resolve.AtPlaceholder (.ref (.registered 0)) := atPlaceholder_halfDeclared
  exact not_settled_of_atPlaceholder hp (hall _ (by rw [he]; simp))

end Diagram

end ClassDiagram
