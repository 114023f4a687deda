import ClassDiagram.Pipeline
import ClassDiagram.Proofs.Accessors
import ClassDiagram.Proofs.Inference
import ClassDiagram.Proofs.Resolution

/-!
# A run of the pipeline

No pass can fail, so a run is a function of the diagram. What comes out is
finished: its names are resolved, it carries the mark, and its entities have
all that the settings ask for. Each pass leaves a finished diagram as it is.
-/

namespace ClassDiagram

namespace Settings

/-- The entity with its accessors, if the settings ask for them. -/
def access (s : Settings) (e : Entity) : Entity :=
  if s.getters then e.extended else e

/-- The entity with its flags, if the settings heed them. -/
def flag (s : Settings) (e : Entity) : Entity :=
  if s.importance then e.markImportant else e

/-- What a run does to one entity. -/
def finish (s : Settings) (e : Entity) : Entity :=
  s.flag (s.access e)

theorem flag_flag (s : Settings) (e : Entity) : s.flag (s.flag e) = s.flag e := by
  unfold flag
  split
  · exact Entity.markImportant_markImportant e
  · rfl

/-- Flags do not make an entity lack accessors that it had. -/
theorem access_finish (s : Settings) (e : Entity) : s.access (s.finish e) = s.finish e := by
  have hmissing (e' : Entity) : (s.flag e').missingAccessors = e'.missingAccessors := by
    unfold flag
    split
    · exact Entity.missingAccessors_markImportant e'
    · rfl
  cases hg : s.getters with
  | false => simp only [access, hg, Bool.false_eq_true, if_false]
  | true =>
      have hx : s.access e = e.extended := by rw [access, hg, if_pos rfl]
      rw [finish, hx, access, hg, if_pos rfl]
      apply Entity.extended_of_nothing_missing
      rw [hmissing, Entity.missingAccessors_extended]

theorem finish_finish (s : Settings) (e : Entity) : s.finish (s.finish e) = s.finish e := by
  calc
    s.finish (s.finish e) = s.flag (s.finish e) := by rw [finish, access_finish]
    _ = s.finish e := by rw [finish, flag_flag]

theorem kind_finish (s : Settings) (e : Entity) : (s.finish e).kind = e.kind := by
  have haccess : (s.access e).kind = e.kind := by
    unfold access
    split
    · exact Entity.kind_extended e
    · rfl
  unfold finish flag
  split
  · rw [Entity.kind_markImportant, haccess]
  · exact haccess

end Settings

namespace Diagram

/-! ## The passes as functions -/

/-- Adding accessors to all entities never fails. -/
theorem synthesizeAccessors_eq (d : Diagram) :
    d.synthesizeAccessors = .ok ({ d with objects := d.objects.map (·.extended) },
      (d.objects.values.flatMap (·.missingAccessors)).length) := by
  rw [synthesizeAccessors, Table.traverse_eq_map Entity.withAccessors_eq]
  rfl

theorem accessorPass_eq (s : Settings) (d : Diagram) :
    accessorPass s d = .ok { d with objects := d.objects.map s.access } := by
  have hmap : d.objects.map s.access =
      if s.getters then d.objects.map (·.extended) else d.objects :=
    Table.map_ite (s.getters = true) Entity.extended d.objects
  rw [accessorPass, synthesizeAccessors_eq, hmap]
  split <;> rfl

theorem importancePass_eq (s : Settings) (d : Diagram) :
    importancePass s d = { d with objects := d.objects.map s.flag } := by
  have hmap : d.objects.map s.flag =
      if s.importance then d.objects.map (·.markImportant) else d.objects :=
    Table.map_ite (s.importance = true) Entity.markImportant d.objects
  rw [importancePass, hmap]
  split <;> rfl

/-- What a run makes of a diagram. -/
def outcome (s : Settings) (d : Diagram) : Diagram :=
  { d.resolve.associate s.association with objects := d.objects.map s.finish }

/-- A run never fails. -/
theorem run_eq (s : Settings) (d : Diagram) :
    d.run s = .ok (d.outcome s, (d.outcome s).diagnostics.drop d.diagnostics.length) := by
  have hobjects : ((d.resolve.associate s.association).objects.map s.access).map s.flag =
      d.objects.map s.finish := by
    rw [Table.map_map, objects_associate, objects_resolve]
    rfl
  rw [run, accessorPass_eq]
  simp only [bind, Except.bind, importancePass_eq, hobjects]
  rfl

/-! ## Finished diagrams -/

theorem isResolved_iff (d : Diagram) :
    d.isResolved = true ↔ ∀ e ∈ d.endpoints, e.isResolved = true := by
  rw [isResolved, List.all_eq_true]
  constructor
  · intro h e he
    obtain ⟨r, hr, hend⟩ := (mem_endpoints_iff d e).mp he
    obtain ⟨ha, hb⟩ := Bool.and_eq_true_iff.mp (h r hr)
    simp only [Relation.ends, List.mem_cons, List.not_mem_nil, or_false] at hend
    rcases hend with rfl | rfl
    · exact ha
    · exact hb
  · intro h r hr
    have hends : ∀ e ∈ r.ends, e.isResolved = true :=
      fun e he => h e ((mem_endpoints_iff d e).mpr ⟨r, hr, he⟩)
    exact Bool.and_eq_true_iff.mpr ⟨hends r.a (by simp [Relation.ends]),
      hends r.b (by simp [Relation.ends])⟩

/-- Without bare names there is nothing to resolve. -/
theorem resolve_of_isResolved {d : Diagram} (h : d.isResolved = true) : d.resolve = d := by
  have hends := (isResolved_iff d).mp h
  have hmissing : d.missingNames = [] := by
    rw [List.eq_nil_iff_forall_not_mem]
    intro name hn
    exact Bool.false_ne_true (hends _ ((mem_missingNames d name).mp hn).1)
  have hlink (stubs : Table Entity) : d.relations.map (·.mapEnds (link d.objects stubs)) =
      d.relations := by
    refine (List.map_congr_left ?_).trans (List.map_id _)
    intro r hr
    refine Relation.mapEnds_congr (g := fun e => e) ?_
    intro e he
    cases e with
    | ref _ => rfl
    | name name =>
        exact absurd (hends _ ((mem_endpoints_iff d _).mpr ⟨r, hr, he⟩)) Bool.false_ne_true
  rw [resolve, hlink, hmissing]
  simp [ensureStubs]

/-- What the settings ask for has been done. -/
structure Finished (s : Settings) (d : Diagram) : Prop where
  resolved : d.isResolved = true
  inferred : d.inferred = true
  objects : d.objects.map s.finish = d.objects

theorem finished_outcome (s : Settings) (d : Diagram) : (d.outcome s).Finished s where
  resolved := isResolved_associate (isResolved_resolve d) s.association
  inferred := inferred_associate d.resolve s.association
  objects := by simp only [outcome, Table.map_map, Settings.finish_finish]

theorem Finished.outcome {s : Settings} {d : Diagram} (h : d.Finished s) : d.outcome s = d := by
  rw [Diagram.outcome, resolve_of_isResolved h.resolved, associate_of_inferred h.inferred,
    h.objects]

theorem diagnostics_prefix_outcome (s : Settings) (d : Diagram) :
    d.diagnostics <+: (d.outcome s).diagnostics :=
  (List.prefix_append _ _).trans (diagnostics_prefix_associate d.resolve s.association)

/-- Every run succeeds, resolves all names, returns exactly the diagnostics that it appends, and
leaves nothing to do for another run with the same settings. -/
theorem exists_run_eq_ok (s : Settings) (d : Diagram) :
    ∃ finished reported, d.run s = .ok (finished, reported) ∧
      finished.isResolved = true ∧
      finished.diagnostics = d.diagnostics ++ reported ∧
      finished.run s = .ok (finished, []) := by
  refine ⟨d.outcome s, _, run_eq s d, (finished_outcome s d).resolved, ?_, ?_⟩
  · obtain ⟨reported, h⟩ := diagnostics_prefix_outcome s d
    rw [← h, List.drop_left]
  · rw [run_eq, (finished_outcome s d).outcome, List.drop_length]

end Diagram

end ClassDiagram
