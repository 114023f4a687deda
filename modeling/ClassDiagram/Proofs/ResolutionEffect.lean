import ClassDiagram.Proofs.Edges
import ClassDiagram.Proofs.FirstOccurrence

/-!
# The effect of resolution

Taken in turn, an end that is a bare name goes to its declaration or to its
stub, which is made when it is needed first, and a name without a declaration
is reported when it comes first. New stubs stand behind the old ones, so a
reference that was given out on the way still denotes the same stub in the
end, and nothing depends on how far the walk has come.
-/

namespace ClassDiagram

namespace Table

theorem entries_insert_of_notMem {α : Type} (t : Table α) {key : String} (value : α)
    (h : key ∉ t.keys) : (t.insert key value).entries = t.entries ++ [(key, value)] := by
  have hentries (entries : List (String × α)) (hn : key ∉ entries.map Prod.fst) :
      insertEntry key value entries = entries ++ [(key, value)] := by
    induction entries with
    | nil => rfl
    | cons entry rest ih =>
        rw [List.map_cons, List.mem_cons, not_or] at hn
        rw [insertEntry, if_neg (Ne.symm hn.1), ih hn.2, List.cons_append]
  exact hentries t.entries h

theorem ensure_of_mem {α : Type} (t : Table α) {key : String} (value : α) (h : key ∈ t.keys) :
    t.ensure key value = t := by
  rw [ensure, if_pos ((isSome_get?_iff t key).mpr h)]

theorem entries_ensure_of_notMem {α : Type} (t : Table α) {key : String} (value : α)
    (h : key ∉ t.keys) : (t.ensure key value).entries = t.entries ++ [(key, value)] := by
  rw [ensure, if_neg fun hs => h ((isSome_get?_iff t key).mp hs),
    entries_insert_of_notMem t value h]

/-- A key has its position before it is there. -/
theorem position_ensure {α : Type} (t : Table α) (key : String) (value : α) :
    (t.ensure key value).position key = t.position key := by
  rw [position, keys_ensure, position]
  split
  · rfl
  · next h => rw [List.idxOf_append_of_notMem h, List.idxOf_of_notMem h, List.idxOf_cons_self,
      Nat.add_zero]

end Table

namespace Diagram

/-! ## The stubs of several names -/

theorem ensureStubs_append_singleton (stubs : Table Entity) (names : List String) (name : String) :
    ensureStubs stubs (names ++ [name]) =
      (ensureStubs stubs names).ensure name (.placeholder name) := by
  rw [ensureStubs, List.foldl_append]
  rfl

/-- A name that comes again needs no other stub. -/
theorem ensureStubs_eraseDups (stubs : Table Entity) (names : List String) :
    ensureStubs stubs names.eraseDups = ensureStubs stubs names := by
  induction names using List.reverseRecOn with
  | nil => rfl
  | append_singleton names name ih =>
      rw [eraseDups_append_singleton, ensureStubs_append_singleton]
      split
      · next hm =>
          have hk := (mem_keys_ensureStubs stubs names name).mpr (Or.inr hm)
          rw [ih, Table.ensure_of_mem _ _ hk]
      · rw [ensureStubs_append_singleton, ih]

/-- The names without a stub get one, behind the others and in the order in which they come. -/
theorem entries_ensureStubs (stubs : Table Entity) (names : List String) :
    (ensureStubs stubs names).entries = stubs.entries ++
      (names.filter (· ∉ stubs.keys)).eraseDups.map fun name => (name, .placeholder name) := by
  induction names using List.reverseRecOn with
  | nil => simp [ensureStubs]
  | append_singleton names name ih =>
      have hk := mem_keys_ensureStubs stubs names name
      rw [ensureStubs_append_singleton, List.filter_append]
      by_cases hs : name ∈ stubs.keys
      · rw [Table.ensure_of_mem _ _ (hk.mpr (Or.inl hs)), ih]
        simp [hs]
      · rw [List.filter_cons_of_pos (by simpa using hs), List.filter_nil,
          eraseDups_append_singleton]
        have hmem : name ∈ names.filter (· ∉ stubs.keys) ↔ name ∈ names := by
          simp [hs]
        split
        · next hn => rw [Table.ensure_of_mem _ _ (hk.mpr (Or.inr (hmem.mp hn))), ih]
        · next hn =>
            have hnew : name ∉ (ensureStubs stubs names).keys := by
              rw [hk, not_or]
              exact ⟨hs, fun hm => hn (hmem.mpr hm)⟩
            rw [Table.entries_ensure_of_notMem _ _ hnew, ih, List.map_append, List.append_assoc]
            rfl

/-! ## Taking the ends in turn -/

/-- A diagram while its ends are taken in turn, and the names that have been reported. -/
structure Walk where
  diagram : Diagram
  reported : List String

namespace Walk

/-- Report a name unless that has been done. -/
def report (w : Walk) (name : String) : Walk :=
  if name ∈ w.reported then w
  else ⟨w.diagram.report (unresolvedWarning name), w.reported ++ [name]⟩

/-- Take one end: a bare name goes to its declaration, or else it is reported and goes to its
stub. -/
def take (w : Walk) : Endpoint → Walk × Endpoint
  | .ref ref => (w, .ref ref)
  | .name name =>
    match w.diagram.lookupDeclared name with
    | some ref => (w, .ref ref)
    | none =>
      let stubbed := (w.report name).diagram.stub name
      (⟨stubbed.1, (w.report name).reported⟩, .ref stubbed.2)

/-- Take the ends of several relations. -/
def takeAll (w : Walk) : List Relation → Walk × List Relation
  | [] => (w, [])
  | r :: rest =>
    let a := w.take r.a
    let b := a.1.take r.b
    let more := b.1.takeAll rest
    (more.1, { r with a := a.2, b := b.2 } :: more.2)

end Walk

/-- Resolve the ends of all relations in turn. -/
def resolveInTurn (d : Diagram) : Diagram :=
  let walked := Walk.takeAll ⟨d, []⟩ d.relations
  { walked.1.diagram with relations := walked.2 }

/-- The names that have to be reported among ends, as often as they come. -/
def missingAt (d : Diagram) (ends : List Endpoint) : List String :=
  ends.filterMap (missing? d.objects)

/-- Where the walk stands when it has taken the given ends. -/
def walked (d : Diagram) (ends : List Endpoint) : Walk where
  diagram := { d with
    stubs := ensureStubs d.stubs (d.missingAt ends)
    diagnostics := d.diagnostics ++ (d.missingAt ends).eraseDups.map unresolvedWarning }
  reported := (d.missingAt ends).eraseDups

theorem missing?_eq_none {objects : Table Entity} {name : String} {index : Nat}
    (h : objects.declared? name = some index) : missing? objects (.name name) = none := by
  simp [missing?, Endpoint.pending?, h]

theorem missing?_eq_some {objects : Table Entity} {name : String}
    (h : objects.declared? name = none) : missing? objects (.name name) = some name := by
  simp [missing?, Endpoint.pending?, h]

theorem walked_of_missing?_eq_none {d : Diagram} {e : Endpoint}
    (h : missing? d.objects e = none) (ends : List Endpoint) :
    d.walked (ends ++ [e]) = d.walked ends := by
  simp [walked, missingAt, h]

/-- A name without a declaration is reported if it comes first, and has a stub afterwards. -/
theorem take_walked_missing {d : Diagram} {name : String} (h : d.objects.declared? name = none)
    (ends : List Endpoint) :
    (d.walked ends).take (.name name) =
      (d.walked (ends ++ [.name name]),
        .ref (.stub ((d.walked ends).diagram.stubs.position name))) := by
  have hl : (d.walked ends).diagram.lookupDeclared name = none := by
    rw [lookupDeclared, walked, h, Option.map_none]
  have hm : d.missingAt (ends ++ [.name name]) = d.missingAt ends ++ [name] := by
    simp [missingAt, missing?_eq_some h]
  simp only [Walk.take, hl]
  have hseen : name ∈ (d.walked ends).reported ↔ name ∈ d.missingAt ends := List.mem_eraseDups
  unfold Walk.report
  split
  · next hr =>
      simp only [walked, hm, eraseDups_append_singleton, if_pos (hseen.mp hr),
        ensureStubs_append_singleton, stub]
  · next hr =>
      simp only [walked, hm, eraseDups_append_singleton, if_neg (fun h' => hr (hseen.mpr h')),
        ensureStubs_append_singleton, stub, report, List.map_append, List.map_singleton,
        List.append_assoc]

/-- An end that is taken goes where it is linked to in the tables as they are then. -/
theorem take_walked (d : Diagram) (ends : List Endpoint) (e : Endpoint) :
    (d.walked ends).take e =
      (d.walked (ends ++ [e]), link d.objects (d.walked (ends ++ [e])).diagram.stubs e) := by
  cases e with
  | ref ref =>
      rw [walked_of_missing?_eq_none rfl]
      rfl
  | name name =>
      cases hd : d.objects.declared? name with
      | some index =>
          have hl : (d.walked ends).diagram.lookupDeclared name = some (.registered index) := by
            rw [lookupDeclared, walked, hd, Option.map_some]
          rw [walked_of_missing?_eq_none (missing?_eq_none hd)]
          simp only [Walk.take, hl, link, hd]
      | none =>
          rw [take_walked_missing hd]
          simp only [link, hd, walked, missingAt, List.filterMap_append, List.filterMap_cons_some
            (missing?_eq_some hd), List.filterMap_nil, ensureStubs_append_singleton,
            Table.position_ensure]

/-- Stubs that are made later do not change where an end goes. -/
theorem link_walked {d : Diagram} {ends : List Endpoint} {e : Endpoint} (h : e ∈ ends)
    (more : List Endpoint) :
    link d.objects (d.walked ends).diagram.stubs e =
      link d.objects (d.walked (ends ++ more)).diagram.stubs e := by
  cases e with
  | ref _ => rfl
  | name name =>
      cases hd : d.objects.declared? name with
      | some index => simp only [link, hd]
      | none =>
          have hm : name ∈ d.missingAt ends := List.mem_filterMap.mpr ⟨_, h, missing?_eq_some hd⟩
          have hk : name ∈ (ensureStubs d.stubs (d.missingAt ends)).keys :=
            (mem_keys_ensureStubs _ _ _).mpr (Or.inr hm)
          have hlater : ensureStubs d.stubs (d.missingAt (ends ++ more)) =
              ensureStubs (ensureStubs d.stubs (d.missingAt ends)) (d.missingAt more) := by
            rw [missingAt, List.filterMap_append, ensureStubs, List.foldl_append]
            rfl
          have hp := Table.position_of_isPrefix
            (grows_ensureStubs (ensureStubs d.stubs (d.missingAt ends)) (d.missingAt more)).keys hk
          simp only [link, hd, walked, hlater, hp]

/-- Taking the ends of several relations links each of them as the final tables say. -/
theorem takeAll_walked (d : Diagram) (ends : List Endpoint) (rs : List Relation) :
    (d.walked ends).takeAll rs =
      (d.walked (ends ++ rs.flatMap (·.ends)),
        rs.map (·.mapEnds
          (link d.objects (d.walked (ends ++ rs.flatMap (·.ends))).diagram.stubs))) := by
  induction rs generalizing ends with
  | nil => simp [Walk.takeAll]
  | cons r rest ih =>
      have hends : ends ++ (r :: rest).flatMap (·.ends) =
          ends ++ [r.a] ++ [r.b] ++ rest.flatMap (·.ends) := by
        simp [Relation.ends]
      have ha : link d.objects (d.walked (ends ++ [r.a])).diagram.stubs r.a =
          link d.objects (d.walked (ends ++ [r.a] ++ [r.b] ++ rest.flatMap (·.ends))).diagram.stubs
            r.a := by
        rw [List.append_assoc (ends ++ [r.a])]
        exact link_walked (by simp) _
      have hb : link d.objects (d.walked (ends ++ [r.a] ++ [r.b])).diagram.stubs r.b =
          link d.objects (d.walked (ends ++ [r.a] ++ [r.b] ++ rest.flatMap (·.ends))).diagram.stubs
            r.b := link_walked (by simp) _
      simp only [Walk.takeAll, take_walked, ih, hends, ha, hb, List.map_cons, Relation.mapEnds]

/-- Taking the ends in turn gives what linking all of them at once gives. -/
theorem resolveInTurn_eq (d : Diagram) : d.resolveInTurn = d.resolve := by
  have hmissing : d.missingNames = (d.missingAt d.endpoints).eraseDups := missingNames_eq d
  have hstart : (⟨d, []⟩ : Walk) = d.walked [] := by
    simp [walked, missingAt, ensureStubs]
  rw [resolveInTurn, hstart, takeAll_walked, resolve, hmissing, ensureStubs_eraseDups]
  rfl

/-! ## What becomes of the diagram -/

/-- Where resolution takes an end: a reference stays, and a name goes to its declaration or else
to the stub that is stored under it. -/
inductive Resolves (d : Diagram) (stubs : Table Entity) : Endpoint → Endpoint → Prop
  | kept (ref : Ref) : Resolves d stubs (.ref ref) (.ref ref)
  | declared {name : String} {ref : Ref} (h : d.lookupDeclared name = some ref) :
      Resolves d stubs (.name name) (.ref ref)
  | stubbed {name : String} {index : Nat} (h : d.lookupDeclared name = none)
      (hs : stubs.key? index = some name) : Resolves d stubs (.name name) (.ref (.stub index))

theorem resolves_link {d : Diagram} {e : Endpoint} (he : e ∈ d.endpoints) :
    d.Resolves d.resolve.stubs e (link d.objects d.resolve.stubs e) := by
  cases e with
  | ref ref => exact .kept ref
  | name name =>
      cases hd : d.objects.declared? name with
      | some index =>
          simp only [link, hd]
          exact .declared (by rw [lookupDeclared, hd, Option.map_some])
      | none =>
          simp only [link, hd]
          exact .stubbed (by rw [lookupDeclared, hd, Option.map_none]) (key?_stub_of_missing he hd)

/-- The names that get a stub: those without a declaration that have none. -/
theorem exists_entries_stubs_resolve (d : Diagram) :
    ∃ added, d.resolve.stubs.entries =
        d.stubs.entries ++ added.map (fun name => (name, .placeholder name)) ∧
      ListsFirst (fun e => (missing? d.objects e).filter (· ∉ d.stubs.keys)) d.endpoints added := by
  have hstubs : d.resolve.stubs =
      ensureStubs d.stubs (d.endpoints.filterMap (missing? d.objects)) := by
    rw [resolve, missingNames_eq]
    exact ensureStubs_eraseDups _ _
  refine ⟨_, by rw [hstubs]; exact entries_ensureStubs _ _, ?_⟩
  rw [List.filter_filterMap]
  exact listsFirst_eraseDups _ _

/-- A warning that tells of one name that it has no declaration. -/
structure ReportsMissing (name : String) (warning : Diagnostic) : Prop where
  severity : warning.severity = .warning
  code : warning.code.map Code.label = some "E100"
  message : warning.message = "unable to resolve object `" ++ name ++ "`"
  object : warning.object = none

theorem reportsMissing_unresolvedWarning (name : String) :
    ReportsMissing name (unresolvedWarning name) :=
  ⟨rfl, rfl, rfl, rfl⟩

/-- What resolution does, which is what taking the ends in turn does. The entities stay, and so do
the relations with their order, kinds and payloads but for their bare names. The names without a
declaration and without a stub get stubs, and for each name without a declaration there is one
warning that tells of it, in the order in which they come first. Nothing is left to be resolved. -/
theorem resolve_effect (d : Diagram) :
    d.resolveInTurn = d.resolve ∧
      d.resolve.objects = d.objects ∧ d.resolve.inferred = d.inferred ∧
      List.Forall₂ (Relation.Follows (d.Resolves d.resolve.stubs)) d.relations
        d.resolve.relations ∧
      (∃ added, d.resolve.stubs.entries = d.stubs.entries ++
          added.map (fun name => (name, { name := name, content := .placeholder })) ∧
        ListsFirst (fun e => (missing? d.objects e).filter (· ∉ d.stubs.keys)) d.endpoints
          added) ∧
      (∃ reported warnings, d.resolve.diagnostics = d.diagnostics ++ warnings ∧
        List.Forall₂ ReportsMissing reported warnings ∧
        ListsFirst (missing? d.objects) d.endpoints reported) ∧
      d.resolve.isResolved = true ∧ d.resolve.resolve = d.resolve := by
  refine ⟨resolveInTurn_eq d, rfl, rfl, ?_, exists_entries_stubs_resolve d, ?_,
    isResolved_resolve d, resolve_of_isResolved (isResolved_resolve d)⟩
  · exact Relation.follows_mapEnds fun e he => resolves_link he
  · refine ⟨d.missingNames, d.missingNames.map unresolvedWarning, rfl, ?_, ?_⟩
    · rw [List.forall₂_map_right_iff, List.forall₂_same]
      exact fun name _ => reportsMissing_unresolvedWarning name
    · rw [missingNames_eq]
      exact listsFirst_eraseDups _ _

end Diagram

end ClassDiagram
