import ClassDiagram.Proofs.InferenceOrder
import ClassDiagram.Proofs.Pipeline

/-!
# The order of the passes

The passes read what others write, yet no pass writes what another one reads
of it: accessors and flags touch nothing that resolution or inference looks
at, inference adds no bare names, and resolution leaves references alone. So
any two passes commute but for the order of their diagnostics, and each reports
the same wherever it stands. Both carry over to whole orders by induction.
-/

namespace ClassDiagram

/-! ## Changes of entities that inference does not see -/

/-- A change of entities, and the one of their attributes with it, that keeps all that the other
passes read. -/
structure Entity.Unseen (f : Entity → Entity) (g : Member → Member) : Prop where
  name : ∀ e, (f e).name = e.name
  kind : ∀ e, (f e).kind = e.kind
  doc : ∀ e, (f e).doc = e.doc
  attributes : ∀ e, (f e).attributes = e.attributes.map g
  memberName : ∀ m, (g m).name = m.name
  memberDoc : ∀ m, (g m).doc = m.doc
  memberType : ∀ m, (g m).type? = m.type?

namespace Entity

theorem unseen_extended : Unseen extended fun m => m where
  name _ := rfl
  kind := kind_extended
  doc _ := rfl
  attributes e := by rw [attributes_extended, List.map_id']
  memberName _ := rfl
  memberDoc _ := rfl
  memberType _ := rfl

theorem unseen_markImportant : Unseen markImportant Member.markImportant where
  name _ := rfl
  kind := kind_markImportant
  doc _ := rfl
  attributes := attributes_mapMembers Member.markImportant
  memberName _ := rfl
  memberDoc _ := rfl
  memberType _ := rfl

/-- A generated accessor has no documentation, so it does not ask for a flag. -/
theorem map_markImportant_missingAccessors (e : Entity) :
    e.missingAccessors.map (·.markImportant) = e.missingAccessors := by
  refine (List.map_congr_left ?_).trans (List.map_id _)
  intro a ha
  obtain ⟨m, _, hm⟩ := List.mem_filterMap.mp ha
  obtain ⟨type, _, rfl⟩ := Option.map_eq_some_iff.mp hm
  rfl

theorem extended_markImportant (e : Entity) :
    e.markImportant.extended = e.extended.markImportant := by
  have hcontent (c : Content) (ms : List Member) :
      (c.appendMethods ms).mapMembers (·.markImportant) =
        (c.mapMembers (·.markImportant)).appendMethods (ms.map (·.markImportant)) := by
    cases c <;> simp [Content.appendMethods, Content.mapMembers, Body.mapMembers]
  rw [extended, missingAccessors_markImportant]
  simp only [markImportant, mapMembers, extended, hcontent, map_markImportant_missingAccessors]

end Entity

theorem Table.declared?_map {f : Entity → Entity} (hk : ∀ e, (f e).kind = e.kind)
    (t : Table Entity) (name : String) : (t.map f).declared? name = t.declared? name := by
  have hp (e : Entity) : (f e).isPlaceholder = e.isPlaceholder := by
    rw [Entity.isPlaceholder, hk, Entity.isPlaceholder]
  rw [declared?, get?_map, position, keys_map, declared?, position]
  cases t.get? name with
  | none => rfl
  | some e => rw [Option.map_some, Option.any_some, Option.any_some, hp]

namespace Diagram

/-- Change every registered entity. -/
def mapObjects (f : Entity → Entity) (d : Diagram) : Diagram :=
  { d with objects := d.objects.map f }

section Unseen

variable {f : Entity → Entity} {g : Member → Member}

theorem lookupDeclared_mapObjects (hk : ∀ e, (f e).kind = e.kind) (d : Diagram) (name : String) :
    (d.mapObjects f).lookupDeclared name = d.lookupDeclared name := by
  rw [lookupDeclared, mapObjects, Table.declared?_map hk, lookupDeclared]

theorem declared_mapObjects (hk : ∀ e, (f e).kind = e.kind) (d : Diagram) :
    (d.mapObjects f).declared = d.declared.map fun e => (e.1, f e.2) := by
  have hregistered : (d.mapObjects f).registered = d.registered.map fun e => (e.1, f e.2) := by
    rw [registered, mapObjects, Table.values_map, List.zipIdx_map, List.map_map, registered,
      List.map_map]
    rfl
  rw [declared, hregistered, List.filter_map, declared]
  congr 1
  apply List.filter_congr
  intro e _
  rw [Function.comp_apply, Entity.isPlaceholder, hk, Entity.isPlaceholder]

/-! ## Findings -/

/-- Of a diagram, findings depend on the declared names only. -/
theorem findAll_congr {d d' : Diagram} (h : ∀ name, d.lookupDeclared name = d'.lookupDeclared name)
    (s : AssociationSettings) (source : Ref) (owner : Entity) :
    d.findAll s source owner = d'.findAll s source owner := by
  have htag : d.findTag = d'.findTag := by
    funext source owner role tag
    simp only [findTag, h]
  have hmentions : d.mentions = d'.mentions := by
    funext attributes
    simp only [mentions, h]
  simp only [findAll, findExplicit, htag, hmentions]

/-- Of the owner, findings depend on what the change keeps. -/
theorem findAll_unseen (h : Entity.Unseen f g) (d : Diagram) (s : AssociationSettings)
    (source : Ref) (owner : Entity) :
    d.findAll s source (f owner) = d.findAll s source owner := by
  have htag : d.findTag source (f owner) = d.findTag source owner := by
    funext role tag
    simp only [findTag, malformedWarning, unknownTargetWarning, h.name]
  have hmentions : d.mentions (inferring (f owner)) = d.mentions (inferring owner) := by
    simp only [mentions, inferring, h.attributes, List.filter_map, List.flatMap_map,
      Function.comp_def, h.memberDoc, h.memberType, h.memberName]
  simp only [findAll, findExplicit, htag, hmentions, h.doc, h.attributes, List.flatMap_map,
    h.memberName, h.memberDoc]

/-- What inference finds, which is nothing once the mark is set. -/
def findings (d : Diagram) (s : AssociationSettings) : List Finding :=
  if d.inferred then [] else d.declared.flatMap fun e => d.findAll s e.1 e.2

theorem associate_eq_findings (d : Diagram) (s : AssociationSettings) :
    d.associate s = { d with
      relations := d.relations ++ Finding.relations (d.findings s)
      diagnostics := d.diagnostics ++ Finding.warnings (d.findings s)
      inferred := true } := by
  unfold associate findings
  split
  · next hi => simp [Finding.relations, Finding.warnings, ← hi]
  · rfl

theorem findings_mapObjects (h : Entity.Unseen f g) (d : Diagram) (s : AssociationSettings) :
    (d.mapObjects f).findings s = d.findings s := by
  have hfind (e : Ref × Entity) :
      (d.mapObjects f).findAll s e.1 (f e.2) = d.findAll s e.1 e.2 := by
    rw [findAll_congr (lookupDeclared_mapObjects h.kind d), findAll_unseen h]
  rw [findings, declared_mapObjects h.kind, List.flatMap_map, findings]
  simp only [hfind]
  rfl

theorem findings_resolve (d : Diagram) (s : AssociationSettings) :
    d.resolve.findings s = d.findings s := by
  have hfind (e : Ref × Entity) : d.resolve.findAll s e.1 e.2 = d.findAll s e.1 e.2 :=
    findAll_congr (fun _ => rfl) s e.1 e.2
  simp only [findings, hfind]
  rfl

theorem exists_associate_of_mem_findings {d : Diagram} {s : AssociationSettings} {r : Relation}
    (h : r ∈ Finding.relations (d.findings s)) :
    ∃ source target association,
      r = .associate (.registered source) (.registered target) association := by
  have hr := Finding.mem_relations_iff.mp h
  unfold findings at hr
  split at hr
  · cases hr
  · obtain ⟨e, he, hf⟩ := List.mem_flatMap.mp hr
    obtain ⟨⟨owner, source⟩, _, rfl⟩ := List.mem_map.mp (List.mem_filter.mp he).1
    obtain ⟨name, _, association, hn, rfl⟩ := leadsToDeclared_of_findAll hf
    obtain ⟨target, _, rfl⟩ := Option.map_eq_some_iff.mp hn
    exact ⟨source, target, association, rfl⟩

/-! ## Missing names -/

theorem missingNames_mapObjects (hk : ∀ e, (f e).kind = e.kind) (d : Diagram) :
    (d.mapObjects f).missingNames = d.missingNames := by
  simp only [missingNames, lookupDeclared_mapObjects hk]
  rfl

theorem lookupDeclared_associate (d : Diagram) (s : AssociationSettings) (name : String) :
    (d.associate s).lookupDeclared name = d.lookupDeclared name := by
  rw [lookupDeclared, objects_associate, lookupDeclared]

theorem missingNames_associate (d : Diagram) (s : AssociationSettings) :
    (d.associate s).missingNames = d.missingNames := by
  have hnone : (Finding.relations (d.findings s)).flatMap (fun r => r.ends.filterMap (·.pending?))
      = [] := by
    apply List.flatMap_eq_nil_iff.mpr
    intro r hr
    obtain ⟨source, target, association, rfl⟩ := exists_associate_of_mem_findings hr
    rfl
  have hpending : (d.associate s).pendingNames = d.pendingNames := by
    rw [associate_eq_findings, pendingNames, List.flatMap_append, List.filterMap_append,
      List.filterMap_flatMap, List.filterMap_flatMap, hnone, List.append_nil, pendingNames,
      List.filterMap_flatMap]
  simp only [missingNames, hpending, lookupDeclared_associate]

/-! ## Passes that commute -/

/-- Equal but for the diagnostics. -/
def Alike (d d' : Diagram) : Prop :=
  { d with diagnostics := [] } = { d' with diagnostics := [] }

theorem alike_iff (d d' : Diagram) :
    d.Alike d' ↔ d.objects = d'.objects ∧ d.stubs = d'.stubs ∧ d.relations = d'.relations ∧
      d.inferred = d'.inferred := by
  simp [Alike]

theorem resolve_mapObjects (hk : ∀ e, (f e).kind = e.kind) (d : Diagram) :
    (d.mapObjects f).resolve = d.resolve.mapObjects f := by
  have hlink (stubs : Table Entity) : link (d.objects.map f) stubs = link d.objects stubs := by
    funext e
    cases e with
    | ref _ => rfl
    | name name => simp only [link, Table.declared?_map hk]
  rw [resolve, missingNames_mapObjects hk]
  simp only [mapObjects, hlink]
  rfl

theorem associate_mapObjects (h : Entity.Unseen f g) (d : Diagram) (s : AssociationSettings) :
    (d.mapObjects f).associate s = (d.associate s).mapObjects f := by
  rw [associate_eq_findings, findings_mapObjects h, associate_eq_findings]
  rfl

/-- Inference adds no names, so it does not matter whether names are resolved before or after. -/
theorem alike_resolve_associate (d : Diagram) (s : AssociationSettings) :
    (d.associate s).resolve.Alike (d.resolve.associate s) := by
  have hlink (stubs : Table Entity) :
      (Finding.relations (d.findings s)).map (·.mapEnds (link d.objects stubs)) =
        Finding.relations (d.findings s) := by
    refine (List.map_congr_left ?_).trans (List.map_id _)
    intro r hr
    obtain ⟨source, target, association, rfl⟩ := exists_associate_of_mem_findings hr
    rfl
  rw [resolve, missingNames_associate, objects_associate, stubs_associate,
    associate_eq_findings d.resolve, findings_resolve, associate_eq_findings d, alike_iff]
  refine ⟨rfl, rfl, ?_, rfl⟩
  simp only [List.map_append, hlink, resolve]

end Unseen

theorem mapObjects_mapObjects (f g : Entity → Entity) (d : Diagram) :
    (d.mapObjects f).mapObjects g = d.mapObjects fun e => g (f e) := by
  simp only [mapObjects, Table.map_map]

end Diagram

/-- The passes of the pipeline. -/
inductive Pass
  | resolve
  | associate
  | accessors
  | importance
deriving DecidableEq

namespace Pass

/-- All passes, as the pipeline orders them. -/
def all : List Pass := [resolve, associate, accessors, importance]

/-- Carry out a pass. -/
def apply (s : AssociationSettings) (d : Diagram) : Pass → Except ModelError Diagram
  | resolve => .ok d.resolve
  | associate => .ok (d.associate s)
  | accessors => d.synthesizeAccessors.map Prod.fst
  | importance => .ok d.markImportant.1

/-- Carry out one pass after the other; the first that fails ends it. -/
def applyAll (s : AssociationSettings) : List Pass → Diagram → Except ModelError Diagram
  | [], d => .ok d
  | p :: rest, d => do applyAll s rest (← p.apply s d)

/-- The diagnostics that a pass adds to a diagram. -/
def reports (s : AssociationSettings) (d : Diagram) : Pass → List Diagnostic
  | resolve => d.missingNames.map Diagram.unresolvedWarning
  | associate => Finding.warnings (d.findings s)
  | accessors => []
  | importance => []

/-- What a pass makes of a diagram. -/
def act (s : AssociationSettings) (d : Diagram) : Pass → Diagram
  | resolve => d.resolve
  | associate => d.associate s
  | accessors => d.mapObjects Entity.extended
  | importance => d.mapObjects Entity.markImportant

/-- No pass fails. -/
theorem apply_eq (s : AssociationSettings) (d : Diagram) (p : Pass) :
    p.apply s d = .ok (p.act s d) := by
  cases p with
  | resolve => rfl
  | associate => rfl
  | accessors =>
      rw [apply, Diagram.synthesizeAccessors_eq]
      rfl
  | importance => rfl

theorem diagnostics_act (s : AssociationSettings) (d : Diagram) (p : Pass) :
    (p.act s d).diagnostics = d.diagnostics ++ p.reports s d := by
  cases p with
  | resolve => rfl
  | associate => rw [act, Diagram.associate_eq_findings]; rfl
  | accessors => exact (List.append_nil _).symm
  | importance => exact (List.append_nil _).symm

/-- What a pass does apart from reporting does not depend on the diagnostics. -/
theorem alike_act {d d' : Diagram} (h : d.Alike d') (s : AssociationSettings) (p : Pass) :
    (p.act s d).Alike (p.act s d') := by
  have hact (d : Diagram) : (p.act s d).Alike (p.act s { d with diagnostics := [] }) := by
    cases p with
    | resolve => rfl
    | associate =>
        have hfind : ({ d with diagnostics := [] } : Diagram).findings s = d.findings s := by
          have hsame (e : Ref × Entity) :
              ({ d with diagnostics := [] } : Diagram).findAll s e.1 e.2 = d.findAll s e.1 e.2 :=
            Diagram.findAll_congr (fun _ => rfl) s e.1 e.2
          simp only [Diagram.findings, hsame]
          rfl
        rw [act, act, Diagram.associate_eq_findings, Diagram.associate_eq_findings, hfind]
        rfl
    | accessors => rfl
    | importance => rfl
  have hd := hact d
  rw [Diagram.Alike] at h
  rw [h] at hd
  exact hd.trans (hact d').symm

/-- Any two passes commute but for their diagnostics. -/
theorem alike_act_act (s : AssociationSettings) (d : Diagram) (p q : Pass) :
    (q.act s (p.act s d)).Alike (p.act s (q.act s d)) := by
  have hresolve (f : Entity → Entity) (hf : ∀ e, (f e).kind = e.kind) :
      (d.mapObjects f).resolve.Alike (d.resolve.mapObjects f) := by
    rw [Diagram.resolve_mapObjects hf]
    rfl
  have hassociate (f : Entity → Entity) (g : Member → Member) (hf : Entity.Unseen f g) :
      ((d.mapObjects f).associate s).Alike ((d.associate s).mapObjects f) := by
    rw [Diagram.associate_mapObjects hf]
    rfl
  have hflags : ((d.mapObjects Entity.markImportant).mapObjects Entity.extended).Alike
      ((d.mapObjects Entity.extended).mapObjects Entity.markImportant) := by
    simp only [Diagram.mapObjects_mapObjects, Entity.extended_markImportant]
    rfl
  cases p <;> cases q
  case resolve.associate => exact (Diagram.alike_resolve_associate d s).symm
  case associate.resolve => exact Diagram.alike_resolve_associate d s
  case resolve.accessors => exact (hresolve _ Entity.kind_extended).symm
  case accessors.resolve => exact hresolve _ Entity.kind_extended
  case resolve.importance => exact (hresolve _ Entity.kind_markImportant).symm
  case importance.resolve => exact hresolve _ Entity.kind_markImportant
  case associate.accessors => exact (hassociate _ _ Entity.unseen_extended).symm
  case accessors.associate => exact hassociate _ _ Entity.unseen_extended
  case associate.importance => exact (hassociate _ _ Entity.unseen_markImportant).symm
  case importance.associate => exact hassociate _ _ Entity.unseen_markImportant
  case accessors.importance => exact hflags.symm
  case importance.accessors => exact hflags
  all_goals rfl

/-- A pass reports the same before and after another one. -/
theorem reports_act (s : AssociationSettings) (d : Diagram) {p q : Pass} (h : p ≠ q) :
    q.reports s (p.act s d) = q.reports s d := by
  cases q with
  | resolve =>
      have hnames : (p.act s d).missingNames = d.missingNames := by
        cases p with
        | resolve => exact absurd rfl h
        | associate => exact Diagram.missingNames_associate d s
        | accessors => exact Diagram.missingNames_mapObjects Entity.kind_extended d
        | importance => exact Diagram.missingNames_mapObjects Entity.kind_markImportant d
      rw [reports, hnames, reports]
  | associate =>
      have hfindings : (p.act s d).findings s = d.findings s := by
        cases p with
        | resolve => exact Diagram.findings_resolve d s
        | associate => exact absurd rfl h
        | accessors => exact Diagram.findings_mapObjects Entity.unseen_extended d s
        | importance => exact Diagram.findings_mapObjects Entity.unseen_markImportant d s
      rw [reports, hfindings, reports]
  | accessors => rfl
  | importance => rfl

/-! ## Orders of passes -/

/-- What passes make of a diagram, one after the other. -/
def actAll (s : AssociationSettings) (order : List Pass) (d : Diagram) : Diagram :=
  order.foldl (act s) d

theorem applyAll_eq (s : AssociationSettings) (order : List Pass) (d : Diagram) :
    applyAll s order d = .ok (actAll s order d) := by
  induction order generalizing d with
  | nil => rfl
  | cons p rest ih =>
      rw [applyAll, apply_eq]
      exact ih (p.act s d)

theorem alike_actAll {d d' : Diagram} (h : d.Alike d') (s : AssociationSettings)
    (order : List Pass) : (actAll s order d).Alike (actAll s order d') := by
  induction order generalizing d d' with
  | nil => exact h
  | cons p rest ih => exact ih (alike_act h s p)

/-- Reordering passes changes nothing but the diagnostics. -/
theorem alike_actAll_of_perm (s : AssociationSettings) {order passes : List Pass}
    (h : order.Perm passes) (d : Diagram) :
    (actAll s order d).Alike (actAll s passes d) := by
  induction h generalizing d with
  | nil => rfl
  | cons p _ ih => exact ih (p.act s d)
  | swap p q rest => exact alike_actAll (alike_act_act s d q p) s rest
  | trans _ _ ih ih' => exact (ih d).trans (ih' d)

/-- Passes that are carried out once each report one after the other what each of them has to
report on the diagram as it was. -/
theorem diagnostics_actAll (s : AssociationSettings) {order : List Pass} (h : order.Nodup)
    (d : Diagram) :
    (actAll s order d).diagnostics = d.diagnostics ++ order.flatMap (reports s d) := by
  induction order generalizing d with
  | nil => exact (List.append_nil _).symm
  | cons p rest ih =>
      obtain ⟨hp, hrest⟩ := List.nodup_cons.mp h
      have hsame : rest.flatMap (reports s (p.act s d)) = rest.flatMap (reports s d) := by
        apply List.flatMap_congr
        intro q hq
        apply reports_act
        rintro rfl
        exact hp hq
      calc
        (actAll s (p :: rest) d).diagnostics =
            (p.act s d).diagnostics ++ rest.flatMap (reports s (p.act s d)) := ih hrest (p.act s d)
        _ = d.diagnostics ++ (p :: rest).flatMap (reports s d) := by
          rw [hsame, diagnostics_act, List.flatMap_cons, List.append_assoc]

end Pass

/-- Whether the settings ask for a pass. -/
def Settings.wants (s : Settings) : Pass → Bool
  | .resolve => true
  | .associate => true
  | .accessors => s.getters
  | .importance => s.importance

/-- The passes that the settings ask for. -/
def Settings.passes (s : Settings) : List Pass :=
  Pass.all.filter s.wants

namespace Diagram

/-- The pipeline carries out the passes of the settings in their order. -/
theorem run_eq_applyAll (s : Settings) (d : Diagram) :
    (d.run s).map Prod.fst = (Pass.applyAll s.association s.passes d).mapError .model := by
  have hpasses : s.passes = .resolve :: .associate ::
      ((if s.getters then [.accessors] else []) ++ if s.importance then [.importance] else []) := by
    simp only [Settings.passes, Pass.all, List.filter_cons, Settings.wants]
    cases s.getters <;> rfl
  rw [hpasses]
  unfold run accessorPass importancePass
  cases s.getters with
  | false => cases s.importance <;> rfl
  | true =>
      simp only [if_true, List.singleton_append, Pass.applyAll, Pass.apply, bind, Except.bind]
      cases (d.resolve.associate s.association).synthesizeAccessors with
      | error e => rfl
      | ok result => cases s.importance <;> rfl

end Diagram

namespace Pass

/-- The passes are independent of their order. The pipeline carries out those that the settings ask
for, and no other order of passes that are carried out once each makes a difference to entities,
stubs, relations and mark. Each pass appends the diagnostics that it would append if it came first,
so only these blocks change their places. In particular, adding accessors does not change what
inference appends. -/
theorem applyAll_perm (s : Settings) (d : Diagram) :
    (d.run s).map Prod.fst = (applyAll s.association s.passes d).mapError .model ∧
    (∀ passes order : List Pass, passes.Nodup → order.Perm passes → ∃ expected result,
      applyAll s.association passes d = .ok expected ∧
      applyAll s.association order d = .ok result ∧
      result.objects = expected.objects ∧ result.stubs = expected.stubs ∧
      result.relations = expected.relations ∧ result.inferred = expected.inferred ∧
      expected.diagnostics = d.diagnostics ++ passes.flatMap (reports s.association d) ∧
      result.diagnostics = d.diagnostics ++ order.flatMap (reports s.association d)) ∧
    (∀ (p : Pass) (first : Diagram), p.apply s.association d = .ok first →
      first.diagnostics = d.diagnostics ++ p.reports s.association d) ∧
    ∀ extended count, d.synthesizeAccessors = .ok (extended, count) →
      ∃ added warnings,
        (d.associate s.association).relations = d.relations ++ added ∧
        (extended.associate s.association).relations = extended.relations ++ added ∧
        (d.associate s.association).diagnostics = d.diagnostics ++ warnings ∧
        (extended.associate s.association).diagnostics = extended.diagnostics ++ warnings := by
  refine ⟨Diagram.run_eq_applyAll s d, ?_, ?_, ?_⟩
  · intro passes order hn hperm
    obtain ⟨hobjects, hstubs, hrelations, hinferred⟩ :=
      (Diagram.alike_iff _ _).mp (alike_actAll_of_perm s.association hperm d)
    exact ⟨_, _, applyAll_eq _ passes d, applyAll_eq _ order d, hobjects, hstubs, hrelations,
      hinferred, diagnostics_actAll s.association hn d,
      diagnostics_actAll s.association (hperm.nodup_iff.mpr hn) d⟩
  · intro p first hp
    rw [apply_eq] at hp
    rw [← Except.ok.inj hp, diagnostics_act]
  · intro extended count hx
    rw [Diagram.synthesizeAccessors_eq] at hx
    obtain rfl : d.mapObjects Entity.extended = extended := (Prod.mk.inj (Except.ok.inj hx)).1
    have hfindings := Diagram.findings_mapObjects Entity.unseen_extended d s.association
    refine ⟨_, _, by rw [Diagram.associate_eq_findings], ?_, by rw [Diagram.associate_eq_findings],
      ?_⟩
    · rw [Diagram.associate_eq_findings, hfindings]
    · rw [Diagram.associate_eq_findings, hfindings]

/-- A private attribute that asks for a flag, an annotation with an unknown target, and a relation
to a name that is not declared. -/
def enquiry : Diagram where
  objects := (Table.empty.insert "Order"
      { name := "Order"
        doc := { tags := [⟨"assoc", [], "1 -> * items Item"⟩] }
        content := .classContent
          { attributes := [{ Member.attr "payer" .privateAccess (.named "Customer") with
              doc := { tags := [⟨"important", [], ""⟩] } }] } }).insert "Customer"
    (.ofKind .interfaceKind "Customer" [])
  relations := [⟨.name "Order", .name "Ledger", .inheritance⟩]

/-- Backwards, the passes give the same, but the unknown target is reported before the name. -/
theorem applyAll_perm_enquiry :
    all.Nodup ∧ [importance, accessors, associate, resolve].Perm all ∧
    ∃ expected result,
      applyAll {} all enquiry = .ok expected ∧
      applyAll {} [importance, accessors, associate, resolve] enquiry = .ok result ∧
      result.objects = expected.objects ∧ result.stubs = expected.stubs ∧
      result.relations = expected.relations ∧ result.inferred = expected.inferred ∧
      expected.relations = [⟨.ref (.registered 0), .ref (.stub 0), .inheritance⟩,
        .associate (.registered 0) (.registered 1) (.ofRoleB "payer")] ∧
      expected.diagnostics.map (·.message) =
        ["unable to resolve object `Ledger`", "unknown association target `Item`"] ∧
      result.diagnostics = expected.diagnostics.reverse ∧
    ∃ extended, enquiry.synthesizeAccessors = .ok (extended, 1) ∧
      (extended.associate {}).relations = (enquiry.associate {}).relations := by
  have hn : all.Nodup := by decide
  have hp : [importance, accessors, associate, resolve].Perm all := by decide
  obtain ⟨_, hperm, _, haccessors⟩ := applyAll_perm {} enquiry
  obtain ⟨expected, result, he, hr, hobjects, hstubs, hrelations, hinferred, hde, hdr⟩ :=
    hperm all _ hn hp
  refine ⟨hn, hp, expected, result, he, hr, hobjects, hstubs, hrelations, hinferred, ?_, ?_, ?_,
    _, rfl, ?_⟩
  · rw [applyAll_eq] at he
    rw [← Except.ok.inj he]
    decide +kernel
  · rw [hde]
    decide +kernel
  · rw [hde, hdr]
    decide +kernel
  · obtain ⟨added, _, hwithout, hwith, _⟩ := haccessors _ _ rfl
    rw [hwithout, hwith]

end Pass

end ClassDiagram
