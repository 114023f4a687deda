import ClassDiagram.Proofs.AnnotationOutcomes
import ClassDiagram.Proofs.Edges

/-!
# Inference after fusing

A fusion carries the mark as soon as one of its diagrams does, and inference
leaves marked diagrams alone. So what is drawn for the attributes of an entity
that comes from a diagram without the mark depends on the other diagram: with
the mark there, only those associations are drawn that were drawn before.
-/

namespace ClassDiagram

namespace Diagram

/-! ## What is drawn between two names -/

/-- The key of what an end is about: the bare name, or the key behind the reference. -/
def endKey? (d : Diagram) : Endpoint → Option String
  | .name name => some name
  | .ref ref => d.key? ref

/-- Some association leads from the one name to the other. -/
def Draws (d : Diagram) (source target : String) : Prop :=
  ∃ a b association, ⟨a, b, .association association⟩ ∈ d.relations ∧
    d.endKey? a = some source ∧ d.endKey? b = some target

section Ends

variable {objects : Table Entity} {name : String} {index : Nat}

/-- A key is that of a declaration exactly if it stands at its position. -/
theorem position_eq_iff (h : objects.declared? name = some index) {position : Nat} {key : String}
    (hk : objects.key? position = some key) : position = index ↔ key = name := by
  constructor
  · rintro rfl
    exact Option.some.inj (hk.symm.trans (Table.key?_of_declared? h))
  · rintro rfl
    obtain ⟨_, hi⟩ := (Table.declared?_eq_some_iff objects key index).mp h
    rw [← hi, Table.position_of_key? hk]

theorem link_name_eq_iff (h : objects.declared? name = some index) (stubs : Table Entity)
    (key : String) :
    link objects stubs (.name key) = .ref (.registered index) ↔ key = name := by
  cases hk : objects.declared? key with
  | none =>
      have hne : key ≠ name := by
        rintro rfl
        rw [h] at hk
        cases hk
      simp [link, hk, hne]
  | some position =>
      simp only [link, hk, Endpoint.ref.injEq, Ref.registered.injEq]
      exact position_eq_iff h (Table.key?_of_declared? hk)

/-- Fused and resolved, exactly the ends about a declared name are at its declaration. -/
theorem link_settle_eq_iff (h : objects.declared? name = some index) {d : Diagram}
    (hd : d.Closed) (hg : d.objects.Grows objects) (stubs : Table Entity) {e : Endpoint}
    (he : e ∈ d.endpoints) :
    link objects stubs (settle objects d.stubs e) = .ref (.registered index) ↔
      d.endKey? e = some name := by
  cases e with
  | name key => exact (link_name_eq_iff h stubs key).trans Option.some_inj.symm
  | ref ref =>
      obtain ⟨key, hk⟩ := hd.key? he
      rw [endKey?, hk, Option.some_inj]
      cases ref with
      | registered position =>
          simp only [settle, link, Endpoint.ref.injEq, Ref.registered.injEq]
          exact position_eq_iff h (hg.key? hk)
      | stub position =>
          rw [settle_stub hk]
          cases hdecl : objects.declared? key with
          | none =>
              have hne : key ≠ name := by
                rintro rfl
                rw [h] at hdecl
                cases hdecl
              simp [link, hne]
          | some declaration =>
              rw [← link_name_eq_iff h stubs key]
              simp only [link, hdecl]

theorem link_retarget_eq_iff (h : objects.declared? name = some index) {other : Diagram}
    (ho : other.Closed) (stubs : Table Entity) {e : Endpoint} (he : e ∈ other.endpoints) :
    link objects stubs (retarget objects other e) = .ref (.registered index) ↔
      other.endKey? e = some name := by
  cases e with
  | name key => exact (link_name_eq_iff h stubs key).trans Option.some_inj.symm
  | ref ref =>
      obtain ⟨key, hk⟩ := ho.key? he
      rw [endKey?, hk, Option.some_inj, retarget_ref hk, ← link_name_eq_iff h stubs key]
      exact iff_of_eq (congrArg (· = _) (link_aimEnd objects stubs (.name key)))

end Ends

theorem exists_associate_mem_mapEnds_iff {d : Diagram} {f : Endpoint → Endpoint}
    {source target : Ref} {x y : String}
    (hx : ∀ e ∈ d.endpoints, f e = .ref source ↔ d.endKey? e = some x)
    (hy : ∀ e ∈ d.endpoints, f e = .ref target ↔ d.endKey? e = some y) :
    (∃ association, .associate source target association ∈ d.relations.map (·.mapEnds f)) ↔
      d.Draws x y := by
  have hends {a b : Endpoint} {kind : RelationKind} (hr : ⟨a, b, kind⟩ ∈ d.relations) :
      a ∈ d.endpoints ∧ b ∈ d.endpoints := by
    simp only [mem_endpoints_iff]
    exact ⟨⟨_, hr, by simp [Relation.ends]⟩, ⟨_, hr, by simp [Relation.ends]⟩⟩
  constructor
  · rintro ⟨association, hm⟩
    obtain ⟨⟨a, b, kind⟩, hr, he⟩ := List.mem_map.mp hm
    obtain ⟨ha, hb, rfl⟩ := Relation.mk.inj he
    exact ⟨a, b, association, hr, (hx a (hends hr).1).mp ha, (hy b (hends hr).2).mp hb⟩
  · rintro ⟨a, b, association, hr, ha, hb⟩
    refine ⟨association, List.mem_map.mpr ⟨_, hr, ?_⟩⟩
    rw [Relation.mapEnds, (hx a (hends hr).1).mpr ha, (hy b (hends hr).2).mpr hb,
      Relation.associate]

/-- Resolved, a fusion draws what either diagram draws between names that are declared now. -/
theorem exists_associate_resolve_fusedWith_iff {d other : Diagram} {objects : Table Entity}
    (hd : d.Closed) (ho : other.Closed) (hf : d.objects.IsFusion other.objects objects)
    {x y : String} {source target : Ref}
    (hx : (d.fusedWith other objects).lookupDeclared x = some source)
    (hy : (d.fusedWith other objects).lookupDeclared y = some target) :
    (∃ association, .associate source target association ∈
        (d.fusedWith other objects).resolve.relations) ↔ d.Draws x y ∨ other.Draws x y := by
  obtain ⟨i, (hi : objects.declared? x = some i), rfl⟩ := Option.map_eq_some_iff.mp hx
  obtain ⟨j, (hj : objects.declared? y = some j), rfl⟩ := Option.map_eq_some_iff.mp hy
  let stubs := (d.fusedWith other objects).resolve.stubs
  have hown := exists_associate_mem_mapEnds_iff
    (fun e he => link_settle_eq_iff hi hd hf.grows stubs he)
    (fun e he => link_settle_eq_iff hj hd hf.grows stubs he)
  have htaken := exists_associate_mem_mapEnds_iff
    (fun e he => link_retarget_eq_iff hi ho stubs he)
    (fun e he => link_retarget_eq_iff hj ho stubs he)
  have hrelations : (d.fusedWith other objects).resolve.relations =
      d.relations.map (·.mapEnds fun e => link objects stubs (settle objects d.stubs e)) ++
        other.relations.map (·.mapEnds fun e => link objects stubs (retarget objects other e)) := by
    simp only [resolve, fusedWith, List.map_append, List.map_map, Function.comp_def,
      Relation.mapEnds_mapEnds]
    rfl
  simp only [hrelations, List.mem_append, exists_or, hown, htaken]

/-! ## What is drawn for attributes -/

/-- An attribute of the entity declared under `key` names `name` in its type, and no annotation
keeps inference from taking it. -/
def UsesName (d : Diagram) (key name : String) : Prop :=
  ∃ owner m type, d.objects.get? key = some owner ∧ owner.isPlaceholder = false ∧
    owner.doc.hasTag noAssocTag = false ∧ m ∈ owner.attributes ∧
    m.doc.hasTag assocTag = false ∧ m.doc.hasTag noAssocTag = false ∧
    m.type? = some type ∧ name ∈ type.names

theorem mem_declared_of_get? {d : Diagram} {key : String} {e : Entity}
    (h : d.objects.get? key = some e) (he : e.isPlaceholder = false) :
    (.registered (d.objects.position key), e) ∈ d.declared := by
  rw [declared, List.mem_filter, registered, List.mem_map]
  refine ⟨⟨(e, d.objects.position key), ?_, rfl⟩, by simp [he]⟩
  exact List.mk_mem_zipIdx_iff_getElem?.mpr (Table.at?_position h)

theorem mem_uses_of_mem_names {d : Diagram} {owner : Entity} {m : Member} {type : TypeExpr}
    {name : String} {target : Ref} (hm : m ∈ owner.attributes)
    (ha : m.doc.hasTag assocTag = false) (hn : m.doc.hasTag noAssocTag = false)
    (ht : m.type? = some type) (hname : name ∈ type.names)
    (hl : d.lookupDeclared name = some target) : (target, m.name) ∈ d.uses owner := by
  refine List.mem_flatMap.mpr ⟨m, hm, ?_⟩
  rw [usesOf, if_neg (by simp [ha, hn]), ht]
  exact List.mem_map.mpr ⟨target, List.mem_filterMap.mpr ⟨name, hname, hl⟩, rfl⟩

/-- Every group of uses has a relation to its target. -/
theorem exists_associate_mem_groupRelations (s : AssociationSettings) (source : Ref)
    {g : Ref × List String} (hg : g.2 ≠ []) :
    ∃ association, .associate source g.1 association ∈ groupRelations s source g := by
  unfold groupRelations
  split
  · exact ⟨_, List.mem_singleton.mpr rfl⟩
  · obtain ⟨role, hr⟩ := List.exists_mem_of_ne_nil _ hg
    exact ⟨{ roleB := role }, List.mem_map.mpr ⟨role, hr, rfl⟩⟩

theorem exists_associate_mem_typeRelations {d : Diagram} (s : AssociationSettings) (source : Ref)
    {owner : Entity} (ho : owner.doc.hasTag noAssocTag = false) {use : Ref × String}
    (hu : use ∈ d.uses owner) :
    ∃ association, .associate source use.1 association ∈ d.typeRelations s (source, owner) := by
  have hgroups := isGrouping_recordAll (d.uses owner)
  obtain ⟨g, hg, hkey⟩ := List.mem_map.mp ((hgroups.mem_keys use.1).mpr (List.mem_map_of_mem hu))
  have hrole : use.2 ∈ g.2 := by
    rw [hgroups.values g hg]
    exact List.mem_map_of_mem (List.mem_filter.mpr ⟨hu, by simp [hkey]⟩)
  obtain ⟨association, hr⟩ :=
    exists_associate_mem_groupRelations s source (List.ne_nil_of_mem hrole)
  rw [hkey] at hr
  refine ⟨association, ?_⟩
  rw [typeRelations, if_neg (by simp [ho])]
  exact List.mem_flatMap.mpr ⟨g, hg, hr⟩

/-- After a run an association is drawn for a use exactly if inference had not been done before,
or if it had been drawn already. -/
theorem exists_associate_outcome_iff {d : Diagram} {key name : String} {source target : Ref}
    (hu : d.UsesName key name) (hs : d.lookupDeclared key = some source)
    (ht : d.lookupDeclared name = some target) (s : Settings) :
    (∃ association, .associate source target association ∈ (d.outcome s).relations) ↔
      d.inferred = false ∨
        ∃ association, .associate source target association ∈ d.resolve.relations := by
  cases hi : d.inferred with
  | true =>
      have hsame : d.resolve.associate s.association = d.resolve :=
        associate_of_inferred (d := d.resolve) hi s.association
      rw [outcome, hsame]
      exact (or_iff_right (by simp)).symm
  | false =>
      refine iff_of_true ?_ (Or.inl rfl)
      obtain ⟨owner, m, type, hget, hdecl, hno, hm, ha, hn, htype, hname⟩ := hu
      have hsource : source = .registered (d.objects.position key) := by
        obtain ⟨index, hindex, rfl⟩ := Option.map_eq_some_iff.mp hs
        rw [((Table.declared?_eq_some_iff _ _ _).mp hindex).2]
      have huse : (target, m.name) ∈ d.resolve.uses owner :=
        mem_uses_of_mem_names (d := d.resolve) hm ha hn htype hname ht
      obtain ⟨association, hr⟩ :=
        exists_associate_mem_typeRelations s.association source hno huse
      refine ⟨association, ?_⟩
      rw [outcome, relations_associate_eq (d := d.resolve) hi]
      refine List.mem_append_right _ (List.mem_flatMap.mpr ⟨(source, owner), ?_, ?_⟩)
      · rw [hsource]
        exact mem_declared_of_get? (d := d.resolve) hget hdecl
      · exact List.mem_append_right _ hr

/-! ## Entities of one diagram only -/

theorem UsesName.congr {d d' : Diagram} {key name : String} (h : d.UsesName key name)
    (hk : d'.objects.get? key = d.objects.get? key) : d'.UsesName key name := by
  obtain ⟨owner, m, type, hget, hrest⟩ := h
  exact ⟨owner, m, type, hk.trans hget, hrest⟩

theorem UsesName.exists_lookupDeclared {d : Diagram} {key name : String}
    (h : d.UsesName key name) : ∃ source, d.lookupDeclared key = some source := by
  obtain ⟨owner, _, _, hget, hdecl, _⟩ := h
  have hindex := (Table.declared?_eq_some_iff d.objects key _).mpr ⟨⟨owner, hget, hdecl⟩, rfl⟩
  exact ⟨_, by rw [lookupDeclared, hindex, Option.map_some]⟩

theorem exists_associate_outcome_fusedWith_iff {d other : Diagram} {objects : Table Entity}
    (hd : d.Closed) (ho : other.Closed) (hf : d.objects.IsFusion other.objects objects)
    {key name : String} {source target : Ref}
    (hu : (d.fusedWith other objects).UsesName key name)
    (hs : (d.fusedWith other objects).lookupDeclared key = some source)
    (ht : (d.fusedWith other objects).lookupDeclared name = some target) (s : Settings) :
    (∃ association, .associate source target association ∈
        ((d.fusedWith other objects).outcome s).relations) ↔
      (d.inferred || other.inferred) = false ∨ d.Draws key name ∨ other.Draws key name := by
  rw [exists_associate_outcome_iff hu hs ht,
    exists_associate_resolve_fusedWith_iff hd ho hf hs ht]
  rfl

/-- Whichever of two diagrams is fused into the other, a run then draws the association of an
attribute, whose entity stands only in a diagram without the mark and whose type names a declared
entity, exactly if the other diagram has no mark either or if one of the two drew it before. -/
theorem run_fuse_associates {d other fused : Diagram} (hd : d.Closed) (ho : other.Closed)
    (hi : d.inferred = false) (h : d.fuse other = .ok fused ∨ other.fuse d = .ok fused)
    (s : Settings) :
    ∃ result reported, fused.run s = .ok (result, reported) ∧
      ∀ key name target, key ∉ other.objects.keys → d.UsesName key name →
        fused.lookupDeclared name = some target →
        ∃ source, fused.lookupDeclared key = some source ∧
          ((∃ association, .associate source target association ∈ result.relations) ↔
            other.inferred = false ∨ d.Draws key name ∨ other.Draws key name) := by
  refine ⟨fused.outcome s, _, run_eq s fused, ?_⟩
  intro key name target hk hu ht
  have hnone : other.objects.get? key = none := by
    rw [← Option.not_isSome_iff_eq_none, Table.isSome_get?_iff]
    exact hk
  rcases h with h | h
  · obtain ⟨objects, hf, rfl⟩ := fuse_eq_ok h
    have hfused : (d.fusedWith other objects).UsesName key name :=
      hu.congr (hf.get?_of_left hnone)
    obtain ⟨source, hs⟩ := hfused.exists_lookupDeclared
    refine ⟨source, hs, ?_⟩
    rw [exists_associate_outcome_fusedWith_iff hd ho hf hfused hs ht, hi, Bool.false_or]
  · obtain ⟨objects, hf, rfl⟩ := fuse_eq_ok h
    have hfused : (other.fusedWith d objects).UsesName key name :=
      hu.congr (hf.get?_of_right hnone)
    obtain ⟨source, hs⟩ := hfused.exists_lookupDeclared
    refine ⟨source, hs, ?_⟩
    rw [exists_associate_outcome_fusedWith_iff ho hd hf hfused hs ht, hi, Bool.or_false,
      or_comm (a := other.Draws key name)]

/-- A shipment that uses three names and draws one of its uses itself, by name. -/
def shipment : Diagram where
  objects := Table.empty.insert "Shipment"
    { name := "Shipment"
      content := .classContent
        { attributes :=
            [.attr "carrier" .privateAccess (.named "Carrier"),
              .attr "depot" .privateAccess (.named "Depot"),
              .attr "payers" .privateAccess (.list (.named "Customer"))] } }
  relations := [⟨.name "Shipment", .name "Depot", .association { roleB := "start" }⟩]

/-- What the shipment uses, after inference, with an association from a stub of the shipment. -/
def fleet : Diagram where
  objects := Table.empty
    |>.insert "Carrier" (.ofKind .classKind "Carrier" [])
    |>.insert "Depot" (.ofKind .interfaceKind "Depot" [])
    |>.insert "Customer" (.ofKind .classKind "Customer" [])
  stubs := Table.empty.insert "Shipment" (.placeholder "Shipment")
  relations := [.associate (.stub 0) (.registered 2) { roleB := "payers" }]
  inferred := true

theorem usesName_shipment :
    shipment.UsesName "Shipment" "Carrier" ∧ shipment.UsesName "Shipment" "Depot" ∧
      shipment.UsesName "Shipment" "Customer" :=
  ⟨⟨_, .attr "carrier" .privateAccess (.named "Carrier"), _, rfl, rfl, rfl, by decide, rfl, rfl,
      rfl, by decide⟩,
    ⟨_, .attr "depot" .privateAccess (.named "Depot"), _, rfl, rfl, rfl, by decide, rfl, rfl,
      rfl, by decide⟩,
    ⟨_, .attr "payers" .privateAccess (.list (.named "Customer")), _, rfl, rfl, rfl, by decide,
      rfl, rfl, rfl, by decide⟩⟩

/-- The shipment keeps what either diagram drew, and gets nothing for its carrier. -/
theorem run_fuse_associates_shipment_fleet :
    shipment.Closed ∧ fleet.Closed ∧ shipment.inferred = false ∧
      ∃ fused result reported, fleet.fuse shipment = .ok fused ∧
        fused.run {} = .ok (result, reported) ∧
        fused.lookupDeclared "Shipment" = some (.registered 3) ∧
        (¬ ∃ association,
          .associate (.registered 3) (.registered 0) association ∈ result.relations) ∧
        (∃ association,
          .associate (.registered 3) (.registered 1) association ∈ result.relations) ∧
        ∃ association,
          .associate (.registered 3) (.registered 2) association ∈ result.relations := by
  have hd : shipment.Closed := by decide
  have ho : fleet.Closed := by decide
  obtain ⟨hcarrier, hdepot, hcustomer⟩ := usesName_shipment
  obtain ⟨fused, hfused, hshipment, h0, h1, h2⟩ :
      ∃ fused, fleet.fuse shipment = .ok fused ∧
        fused.lookupDeclared "Shipment" = some (.registered 3) ∧
        fused.lookupDeclared "Carrier" = some (.registered 0) ∧
        fused.lookupDeclared "Depot" = some (.registered 1) ∧
        fused.lookupDeclared "Customer" = some (.registered 2) :=
    ⟨_, rfl, by decide, by decide, by decide, by decide⟩
  obtain ⟨result, reported, hrun, hdrawn⟩ := run_fuse_associates hd ho rfl (Or.inr hfused) {}
  have hiff (name : String) (index : Nat) (hu : shipment.UsesName "Shipment" name)
      (ht : fused.lookupDeclared name = some (.registered index)) :
      (∃ association, .associate (.registered 3) (.registered index) association ∈
          result.relations) ↔
        fleet.inferred = false ∨ shipment.Draws "Shipment" name ∨ fleet.Draws "Shipment" name := by
    obtain ⟨source, hs, h⟩ := hdrawn "Shipment" name _ (by decide) hu ht
    rwa [Option.some.inj (hs.symm.trans hshipment)] at h
  refine ⟨hd, ho, rfl, fused, result, reported, hfused, hrun, hshipment, ?_, ?_, ?_⟩
  · rw [hiff "Carrier" 0 hcarrier h0]
    rintro (hmark | ⟨_, _, _, hr, _, hb⟩ | ⟨_, _, _, hr, _, hb⟩)
    · cases hmark
    · obtain ⟨rfl, rfl, _⟩ := Relation.mk.inj (List.mem_singleton.mp hr)
      exact absurd hb (by decide)
    · obtain ⟨rfl, rfl, _⟩ := Relation.mk.inj (List.mem_singleton.mp hr)
      exact absurd hb (by decide)
  · exact (hiff "Depot" 1 hdepot h1).mpr
      (Or.inr (Or.inl ⟨_, _, _, List.mem_singleton.mpr rfl, rfl, rfl⟩))
  · exact (hiff "Customer" 2 hcustomer h2).mpr
      (Or.inr (Or.inr ⟨_, _, _, List.mem_singleton.mpr rfl, rfl, rfl⟩))

/-- A parcel with a carrier that is declared elsewhere. -/
def parcel : Diagram where
  objects := Table.empty.insert "Parcel"
    { name := "Parcel"
      content := .classContent
        { attributes := [.attr "carrier" .privateAccess (.named "Carrier")] } }

/-- The carrier, after inference. -/
def carrier : Diagram :=
  associate { objects := Table.empty.insert "Carrier" (.ofKind .classKind "Carrier" []) } {}

/-- Whichever of the two is fused into the other, a run draws nothing from the parcel to its
carrier, because the carrier's diagram has the mark. -/
theorem not_forall_run_fuse_associates :
    parcel.Closed ∧ carrier.Closed ∧ parcel.inferred = false ∧ carrier.inferred = true ∧
      (∃ fused result reported, parcel.fuse carrier = .ok fused ∧
        fused.run {} = .ok (result, reported) ∧ result.relations = []) ∧
      (∃ fused result reported, carrier.fuse parcel = .ok fused ∧
        fused.run {} = .ok (result, reported) ∧ result.relations = []) ∧
      ¬ ∀ (d other fused result : Diagram) (reported : List Diagnostic) (s : Settings),
        d.Closed → other.Closed → d.inferred = false → other.inferred = true →
        d.fuse other = .ok fused ∨ other.fuse d = .ok fused →
        fused.run s = .ok (result, reported) →
        ∀ key name source target, key ∉ other.objects.keys → d.UsesName key name →
          fused.lookupDeclared key = some source → fused.lookupDeclared name = some target →
          ∃ association, .associate source target association ∈ result.relations := by
  have hd : parcel.Closed := by decide
  have ho : carrier.Closed := by decide
  refine ⟨hd, ho, rfl, rfl, ⟨_, _, _, rfl, rfl, by decide⟩, ⟨_, _, _, rfl, rfl, by decide⟩, ?_⟩
  intro hall
  have huses : parcel.UsesName "Parcel" "Carrier" :=
    ⟨_, .attr "carrier" .privateAccess (.named "Carrier"), _, rfl, rfl, rfl, by decide, rfl, rfl,
      rfl, by decide⟩
  obtain ⟨association, hm⟩ := hall parcel carrier _ _ _ {} hd ho rfl rfl (Or.inl rfl) rfl
    "Parcel" "Carrier" (.registered 0) (.registered 1) (by decide) huses (by decide) (by decide)
  cases hm

end Diagram

end ClassDiagram
