import ClassDiagram.Proofs.Edges
import ClassDiagram.Proofs.PassOrder
import ClassDiagram.Proofs.Registration
import Mathlib.Data.List.Basic

/-!
# Outdated stubs

Resolution points the ends of an unknown name at its stub. When the name is
declared afterwards, only a fusion moves these ends to the declaration; no
other operation looks at references again, not even another run. Operation by
operation it is known what outdates a stub and what brings all up to date, so
the history of a diagram tells whether a run leaves a declared name drawn as a
stub.
-/

namespace ClassDiagram

namespace Diagram

/-- Some end is at a stub of the name. -/
def DrawnAsStub (d : Diagram) (name : String) : Prop :=
  ∃ index, .ref (.stub index) ∈ d.endpoints ∧
    d.endpointName? (.ref (.stub index)) = some name

/-- The name is declared, and yet it is drawn as a stub. -/
def Outdated (d : Diagram) (name : String) : Prop :=
  d.DrawnAsStub name ∧ (d.lookupDeclared name).isSome = true

theorem drawnAsStub_iff {d : Diagram} (hs : d.stubs.Named) (name : String) :
    d.DrawnAsStub name ↔
      ∃ index, .ref (.stub index) ∈ d.endpoints ∧ d.stubs.key? index = some name := by
  have hname (index : Nat) : d.endpointName? (.ref (.stub index)) = d.stubs.key? index :=
    hs.map_name_at? index
  simp only [DrawnAsStub, hname]

/-- As long as the same names are declared, only what is drawn of declared names matters. -/
theorem outdated_congr {d d' : Diagram} {name : String}
    (hl : d'.lookupDeclared name = d.lookupDeclared name)
    (hs : (d.lookupDeclared name).isSome = true → (d'.DrawnAsStub name ↔ d.DrawnAsStub name)) :
    d'.Outdated name ↔ d.Outdated name := by
  rw [Outdated, hl]
  exact and_congr_left hs

/-- The stub at an end keeps its name when more stubs are made. -/
theorem Closed.key?_stub_iff {d : Diagram} (h : d.Closed) {stubs : Table Entity}
    (hg : d.stubs.Grows stubs) {index : Nat} (he : .ref (.stub index) ∈ d.endpoints)
    (name : String) : stubs.key? index = some name ↔ d.stubs.key? index = some name := by
  obtain ⟨key, hk⟩ := h.key? he
  have hold : d.stubs.key? index = some key := hk
  rw [hold, hg.key? hold]

theorem drawnAsStub_of_grows {d d' : Diagram} (hd : d.WellFormed) (hn : d'.stubs.Named)
    (hg : d.stubs.Grows d'.stubs) (he : d'.endpoints = d.endpoints) (name : String) :
    d'.DrawnAsStub name ↔ d.DrawnAsStub name := by
  rw [drawnAsStub_iff hn, drawnAsStub_iff hd.stubs, he]
  exact exists_congr fun index => and_congr_right fun hmem => hd.closed.key?_stub_iff hg hmem name

end Diagram

/-! ## What an operation outdates -/

namespace Operation

/-- The operation makes a name outdated: it declares the name, which is drawn as a stub, or it
draws the name, which is declared, as a stub. -/
def Outdates (d : Diagram) (name : String) : Operation → Prop
  | register e => e.name = name ∧ e.isPlaceholder = false ∧ d.lookupDeclared name = none ∧
      d.DrawnAsStub name
  | relate r => (d.lookupDeclared name).isSome = true ∧ ∃ index, .ref (.stub index) ∈ r.ends ∧
      d.endpointName? (.ref (.stub index)) = some name
  | _ => False

/-- The operation is a fusion that succeeds. -/
def Repoints (d : Diagram) : Operation → Prop
  | fuse other => ∃ fused, d.fuse other = .ok fused
  | _ => False

theorem not_repoints_of_outdates {d : Diagram} {name : String} {op : Operation}
    (h : op.Outdates d name) : ¬ op.Repoints d := by
  cases op with
  | fuse other => exact h.elim
  | _ => exact id

end Operation

namespace Diagram

section Steps

variable {d : Diagram} {name : String}

theorem outdated_register {d' : Diagram} {e : Entity} {ref : Ref}
    (h : d.register e = .ok (d', ref)) :
    d'.Outdated name ↔ d.Outdated name ∨ (Operation.register e).Outdates d name := by
  have hdrawn : d'.DrawnAsStub name ↔ d.DrawnAsStub name := by
    obtain ⟨value, _, rfl⟩ := register_eq_ok h
    exact Iff.rfl
  rw [Outdated, hdrawn, isSome_lookupDeclared_register h]
  constructor
  · rintro ⟨hstub, hold | ⟨hn, he⟩⟩
    · exact Or.inl ⟨hstub, hold⟩
    · cases hl : d.lookupDeclared name with
      | none => exact Or.inr ⟨hn, he, hl, hstub⟩
      | some declaration => exact Or.inl ⟨hstub, by rw [hl, Option.isSome_some]⟩
  · rintro (⟨hstub, hold⟩ | ⟨hn, he, _, hstub⟩)
    · exact ⟨hstub, Or.inl hold⟩
    · exact ⟨hstub, Or.inr ⟨hn, he⟩⟩

theorem outdated_relate (r : Relation) :
    (d.relate r).Outdated name ↔ d.Outdated name ∨ (Operation.relate r).Outdates d name := by
  have hends (e : Endpoint) : e ∈ (d.relate r).endpoints ↔ e ∈ d.endpoints ∨ e ∈ r.ends := by
    rw [endpoints, relate, List.flatMap_append, List.mem_append, List.flatMap_singleton, endpoints]
  constructor
  · rintro ⟨⟨index, hmem, hname⟩, hdeclared⟩
    rcases (hends _).mp hmem with hold | hnew
    · exact Or.inl ⟨⟨index, hold, hname⟩, hdeclared⟩
    · exact Or.inr ⟨hdeclared, index, hnew, hname⟩
  · rintro (⟨⟨index, hold, hname⟩, hdeclared⟩ | ⟨hdeclared, index, hnew, hname⟩)
    · exact ⟨⟨index, (hends _).mpr (Or.inl hold), hname⟩, hdeclared⟩
    · exact ⟨⟨index, (hends _).mpr (Or.inr hnew), hname⟩, hdeclared⟩

theorem outdated_stub (hd : d.WellFormed) (key : String) :
    (d.stub key).1.Outdated name ↔ d.Outdated name := by
  refine outdated_congr rfl fun _ => ?_
  exact drawnAsStub_of_grows hd (hd.stub key).stubs (grows_stub d key).stubs rfl name

/-- Resolution makes stubs of names that are not declared, so it makes none outdated. -/
theorem outdated_resolve (hd : d.WellFormed) : d.resolve.Outdated name ↔ d.Outdated name := by
  refine outdated_congr rfl fun hdeclared => ?_
  rw [drawnAsStub_iff hd.resolve.stubs, drawnAsStub_iff hd.stubs, endpoints_resolve]
  constructor
  · rintro ⟨index, hmem, hkey⟩
    obtain ⟨e, he, hlink⟩ := List.mem_map.mp hmem
    cases e with
    | ref ref =>
        cases hlink
        exact ⟨index, he, (hd.closed.key?_stub_iff (grows_resolve d).stubs he name).mp hkey⟩
    | name missing =>
        cases hl : d.objects.declared? missing with
        | some position =>
            simp only [link, hl] at hlink
            cases hlink
        | none =>
            simp only [link, hl] at hlink
            cases hlink
            rw [key?_stub_of_missing he hl] at hkey
            cases hkey
            rw [lookupDeclared, hl] at hdeclared
            cases hdeclared
  · rintro ⟨index, hmem, hkey⟩
    exact ⟨index, List.mem_map.mpr ⟨_, hmem, rfl⟩, (grows_resolve d).stubs.key? hkey⟩

/-- Inference adds no end at a stub. -/
theorem outdated_associate (s : AssociationSettings) :
    (d.associate s).Outdated name ↔ d.Outdated name := by
  have hends (index : Nat) :
      .ref (.stub index) ∈ (d.associate s).endpoints ↔ .ref (.stub index) ∈ d.endpoints := by
    rw [associate_eq_findings, endpoints, List.flatMap_append, List.mem_append, endpoints]
    refine or_iff_left ?_
    intro hnew
    obtain ⟨r, hr, hend⟩ := List.mem_flatMap.mp hnew
    obtain ⟨source, target, association, rfl⟩ := exists_associate_of_mem_findings hr
    simp [Relation.associate, Relation.ends] at hend
  refine outdated_congr (lookupDeclared_associate d s name) fun _ => ?_
  simp only [DrawnAsStub, hends]
  rw [associate_eq_findings]
  rfl

theorem outdated_mapObjects {f : Entity → Entity} (hk : ∀ e, (f e).kind = e.kind) (d : Diagram) :
    (d.mapObjects f).Outdated name ↔ d.Outdated name :=
  outdated_congr (lookupDeclared_mapObjects hk d name) fun _ => Iff.rfl

theorem outdated_outcome (hd : d.WellFormed) (s : Settings) :
    (d.outcome s).Outdated name ↔ d.Outdated name := by
  have houtcome : d.outcome s = (d.resolve.associate s.association).mapObjects s.finish := by
    rw [mapObjects, objects_associate, objects_resolve, outcome]
  rw [houtcome, outdated_mapObjects s.kind_finish, outdated_associate, outdated_resolve hd]

/-- A fusion leaves no declared name drawn as a stub. -/
theorem not_outdated_of_fuse {other fused : Diagram} (hd : d.WellFormed) (ho : other.WellFormed)
    (h : d.fuse other = .ok fused) : ¬ fused.Outdated name := by
  obtain ⟨objects, hf, rfl⟩ := fuse_eq_ok h
  rintro ⟨⟨index, hmem, hname⟩, hdeclared⟩
  have hnone := lookupDeclared_of_stub_mem ⟨hd.objects, hd.stubs, hd.closed⟩
    ⟨ho.objects, ho.stubs, ho.closed⟩ hf hmem hname
  rw [hnone] at hdeclared
  cases hdeclared

end Steps

end Diagram

namespace Operation

/-- A name is outdated after an operation exactly if it was before or the operation makes it so,
unless the operation is a fusion. -/
theorem outdated_apply_iff {d : Diagram} {op : Operation} (hd : d.WellFormed)
    (hf : ∀ other, op = .fuse other → other.WellFormed) (name : String) :
    (op.apply d).Outdated name ↔ ¬ op.Repoints d ∧ (d.Outdated name ∨ op.Outdates d name) := by
  have hadd {d' : Diagram} {P : Prop} (h : d'.Outdated name ↔ d.Outdated name ∨ P) :
      d'.Outdated name ↔ ¬ False ∧ (d.Outdated name ∨ P) := by
    rw [h, not_false_eq_true, true_and]
  have hkeep {d' : Diagram} (h : d'.Outdated name ↔ d.Outdated name) :
      d'.Outdated name ↔ ¬ False ∧ (d.Outdated name ∨ False) :=
    hadd (h.trans (or_iff_left id).symm)
  cases op with
  | register e =>
      cases hr : d.register e with
      | ok result =>
          have happly : (register e).apply d = result.1 := by rw [apply, hr]; rfl
          rw [happly]
          exact hadd (Diagram.outdated_register hr)
      | error error =>
          have happly : (register e).apply d = d := by rw [apply, hr]; rfl
          rw [happly]
          refine hadd (or_iff_left ?_).symm
          rintro ⟨rfl, _, hl, _⟩
          obtain ⟨d', ref, hok⟩ := Diagram.exists_register (Or.inr hl)
          rw [hr] at hok
          cases hok
  | relate r => exact hadd (Diagram.outdated_relate r)
  | stub key => exact hkeep (Diagram.outdated_stub hd key)
  | report diagnostic => exact hkeep Iff.rfl
  | resolve => exact hkeep (Diagram.outdated_resolve hd)
  | associate s => exact hkeep (Diagram.outdated_associate s)
  | synthesizeAccessors =>
      rw [apply_synthesizeAccessors]
      exact hkeep (Diagram.outdated_mapObjects Entity.kind_extended d)
  | markImportant => exact hkeep (Diagram.outdated_mapObjects Entity.kind_markImportant d)
  | run s =>
      rw [apply_run]
      exact hkeep (Diagram.outdated_outcome hd s)
  | fuse other =>
      cases hfuse : d.fuse other with
      | error error =>
          have happly : (fuse other).apply d = d := by rw [apply, hfuse]; rfl
          have hrefused : ¬ (fuse other).Repoints d := by
            rintro ⟨fused, hok⟩
            rw [hfuse] at hok
            cases hok
          rw [happly, iff_true_intro hrefused, true_and]
          exact (or_iff_left id).symm
      | ok fused =>
          have happly : (fuse other).apply d = fused := by rw [apply, hfuse]; rfl
          rw [happly]
          refine iff_of_false (Diagram.not_outdated_of_fuse hd (hf other rfl) hfuse) ?_
          exact fun h => h.1 ⟨fused, hfuse⟩

end Operation

/-! ## Histories -/

/-- An element of a list with one more at the end is this one or stands before it. -/
theorem snoc_eq_append_cons_iff {α : Type} {xs before after : List α} {x last : α} :
    xs ++ [last] = before ++ x :: after ↔
      (xs = before ∧ last = x ∧ after = []) ∨
        ∃ rest, after = rest ++ [last] ∧ xs = before ++ x :: rest := by
  constructor
  · intro h
    rcases List.eq_nil_or_concat' after with rfl | ⟨rest, y, rfl⟩
    · obtain ⟨rfl, hlast⟩ := List.append_inj' h rfl
      exact Or.inl ⟨rfl, List.singleton_inj.mp hlast, rfl⟩
    · rw [← List.cons_append, ← List.append_assoc] at h
      obtain ⟨rfl, hlast⟩ := List.append_inj' h rfl
      obtain rfl := List.singleton_inj.mp hlast
      exact Or.inr ⟨rest, rfl, rfl⟩
  · rintro (⟨rfl, rfl, rfl⟩ | ⟨rest, rfl, rfl⟩)
    · rfl
    · rw [List.append_assoc, List.cons_append]

namespace Diagram

/-- What operations make of the empty diagram. -/
def ofHistory (ops : List Operation) : Diagram :=
  ops.foldl Operation.apply {}

theorem ofHistory_append_singleton (ops : List Operation) (op : Operation) :
    ofHistory (ops ++ [op]) = op.apply (ofHistory ops) := by
  rw [ofHistory, List.foldl_append]
  rfl

/-- Each of the operations is allowed when its turn comes, and what they fuse has been built. -/
inductive History : List Operation → Prop
  | nil : History []
  | snoc {ops : List Operation} (h : History ops) (op : Operation) (ho : op.Allowed (ofHistory ops))
      (hf : ∀ other, op = .fuse other → other.Built) : History (ops ++ [op])

theorem Built.wellFormed {d : Diagram} (h : d.Built) : d.WellFormed :=
  Reaches.wellFormed h wellFormed_empty

/-- The built diagrams are those that have a history. -/
theorem built_iff_exists_history (d : Diagram) :
    d.Built ↔ ∃ ops, History ops ∧ ofHistory ops = d := by
  constructor
  · intro h
    have hreaches {start d : Diagram} (h : start.Reaches d) (hs : start = {}) :
        ∃ ops, History ops ∧ ofHistory ops = d := by
      induction h with
      | refl _ => exact ⟨[], .nil, hs.symm⟩
      | step _ op ho hf ih _ =>
          obtain ⟨ops, hops, rfl⟩ := ih hs
          exact ⟨ops ++ [op], hops.snoc op ho hf, ofHistory_append_singleton ops op⟩
    exact hreaches h rfl
  · rintro ⟨ops, h, rfl⟩
    induction h with
    | nil => exact .refl {}
    | snoc _ op ho hf ih =>
        rw [ofHistory_append_singleton]
        exact Reaches.step ih op ho hf

/-- Some operation makes the name outdated, and there is no fusion behind it. -/
def LeavesOutdated (name : String) (ops : List Operation) : Prop :=
  ∃ before op after, ops = before ++ op :: after ∧ op.Outdates (ofHistory before) name ∧
    ∀ between fusion later, after = between ++ fusion :: later →
      ¬ fusion.Repoints (ofHistory (before ++ op :: between))

theorem leavesOutdated_append_singleton (name : String) (ops : List Operation) (op : Operation) :
    LeavesOutdated name (ops ++ [op]) ↔
      ¬ op.Repoints (ofHistory ops) ∧
        (LeavesOutdated name ops ∨ op.Outdates (ofHistory ops) name) := by
  constructor
  · rintro ⟨before, cause, after, hops, hcause, hlast⟩
    rcases snoc_eq_append_cons_iff.mp hops with ⟨rfl, rfl, rfl⟩ | ⟨rest, rfl, rfl⟩
    · exact ⟨Operation.not_repoints_of_outdates hcause, Or.inr hcause⟩
    · refine ⟨hlast rest op [] rfl, Or.inl ⟨before, cause, rest, rfl, hcause, ?_⟩⟩
      intro between fusion later hrest
      apply hlast between fusion (later ++ [op])
      exact snoc_eq_append_cons_iff.mpr (Or.inr ⟨later, rfl, hrest⟩)
  · rintro ⟨hkept, ⟨before, cause, after, rfl, hcause, hlast⟩ | hcause⟩
    · refine ⟨before, cause, after ++ [op],
        snoc_eq_append_cons_iff.mpr (Or.inr ⟨after, rfl, rfl⟩), hcause, ?_⟩
      intro between fusion later hafter
      rcases snoc_eq_append_cons_iff.mp hafter with ⟨rfl, rfl, rfl⟩ | ⟨rest, rfl, rfl⟩
      · exact hkept
      · exact hlast between fusion rest rfl
    · refine ⟨ops, op, [], rfl, hcause, ?_⟩
      intro between fusion later hnil
      cases between <;> cases hnil

/-- A history tells which names are outdated. -/
theorem outdated_ofHistory_iff {ops : List Operation} (h : History ops) (name : String) :
    (ofHistory ops).Outdated name ↔ LeavesOutdated name ops := by
  induction h with
  | nil =>
      refine iff_of_false ?_ ?_
      · rintro ⟨⟨_, hmem, _⟩, _⟩
        cases hmem
      · rintro ⟨before, _, _, hnil, _⟩
        cases before <;> cases hnil
  | snoc h op ho hf ih =>
      have hd := ((built_iff_exists_history _).mpr ⟨_, h, rfl⟩).wellFormed
      have hstep := op.outdated_apply_iff hd (fun other he => (hf other he).wellFormed) name
      rw [ofHistory_append_singleton, hstep, leavesOutdated_append_singleton, ih]

/-- After a history and a run, a declared name is drawn as a stub exactly if some operation of the
history made the name outdated and no fusion followed. Every history is covered, and a run neither
makes a name outdated nor brings one up to date. -/
theorem outdated_run_iff {ops : List Operation} (h : History ops) (s : Settings) :
    (ofHistory ops).Built ∧ ∃ result reported, (ofHistory ops).run s = .ok (result, reported) ∧
      ∀ name, result.Outdated name ↔ LeavesOutdated name ops := by
  have hbuilt : (ofHistory ops).Built := (built_iff_exists_history _).mpr ⟨ops, h, rfl⟩
  refine ⟨hbuilt, _, _, run_eq s _, fun name => ?_⟩
  rw [outdated_outcome hbuilt.wellFormed, outdated_ofHistory_iff h]

/-- A relation to `B` is resolved before `B` is declared. -/
def belated : List Operation :=
  [.register (.ofKind .classKind "A" []), .relate ⟨.name "A", .name "B", .inheritance⟩, .run {},
    .register (.ofKind .classKind "B" [])]

theorem history_belated : History belated := by
  have hregistered := History.nil.snoc (.register (.ofKind .classKind "A" [])) trivial nofun
  have hrelated := hregistered.snoc (.relate ⟨.name "A", .name "B", .inheritance⟩)
    (by unfold Operation.Allowed; decide) nofun
  exact (hrelated.snoc (.run {}) trivial nofun).snoc (.register (.ofKind .classKind "B" []))
    trivial nofun

/-- The declaration of `B` makes the name outdated, and the run behind it leaves it so; a fusion
with the empty diagram in between brings it up to date. -/
theorem outdated_run_belated :
    History belated ∧ History (belated ++ [.fuse {}]) ∧
      (∃ result reported, (ofHistory belated).run {} = .ok (result, reported) ∧
        result.Outdated "B") ∧
      ∃ result reported, (ofHistory (belated ++ [.fuse {}])).run {} = .ok (result, reported) ∧
        ¬ result.Outdated "B" := by
  have hfused : History (belated ++ [.fuse {}]) := by
    refine history_belated.snoc (.fuse {}) trivial ?_
    rintro other he
    rw [← Operation.fuse.inj he]
    exact Reaches.refl {}
  obtain ⟨_, result, reported, hrun, houtdated⟩ := outdated_run_iff history_belated {}
  obtain ⟨_, result', reported', hrun', hlater⟩ := outdated_run_iff hfused {}
  refine ⟨history_belated, hfused, ⟨result, reported, hrun, (houtdated "B").mpr ?_⟩,
    result', reported', hrun', fun h => ?_⟩
  · have hcause : (Operation.register (.ofKind .classKind "B" [])).Outdates
        (ofHistory (belated.take 3)) "B" :=
      ⟨rfl, by decide, by decide, 0, by decide, by decide⟩
    exact (leavesOutdated_append_singleton "B" (belated.take 3) _).mpr
      ⟨Operation.not_repoints_of_outdates hcause, Or.inr hcause⟩
  · obtain ⟨hrefused, _⟩ :=
      (leavesOutdated_append_singleton "B" belated _).mp ((hlater "B").mp h)
    exact hrefused ⟨_, rfl⟩

/-- A run can leave an end at the stub of a name that is declared. -/
theorem not_forall_run_not_outdated :
    (ofHistory belated).Built ∧
      (∃ result reported, (ofHistory belated).run {} = .ok (result, reported) ∧
        result.endpoints = [.ref (.registered 0), .ref (.stub 0)] ∧
        result.endpointName? (.ref (.stub 0)) = some "B" ∧
        result.lookupDeclared "B" = some (.registered 1)) ∧
      ¬ ∀ (d : Diagram) (s : Settings) (result : Diagram) (reported : List Diagnostic),
        d.Built → d.run s = .ok (result, reported) →
          ∀ index name, .ref (.stub index) ∈ result.endpoints →
            result.endpointName? (.ref (.stub index)) = some name →
            result.lookupDeclared name = none := by
  have hbuilt : (ofHistory belated).Built :=
    (built_iff_exists_history _).mpr ⟨belated, history_belated, rfl⟩
  have hrun := run_eq {} (ofHistory belated)
  have hends : ((ofHistory belated).outcome {}).endpoints =
      [.ref (.registered 0), .ref (.stub 0)] := by decide
  have hname : ((ofHistory belated).outcome {}).endpointName? (.ref (.stub 0)) = some "B" := by
    decide
  have hdeclared : ((ofHistory belated).outcome {}).lookupDeclared "B" =
      some (.registered 1) := by decide
  refine ⟨hbuilt, ⟨_, _, hrun, hends, hname, hdeclared⟩, ?_⟩
  intro hall
  have hnone := hall _ _ _ _ hbuilt hrun 0 "B" (by rw [hends]; simp) hname
  rw [hdeclared] at hnone
  cases hnone

end Diagram

end ClassDiagram
