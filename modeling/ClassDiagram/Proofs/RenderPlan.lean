import ClassDiagram.Proofs.FirstOccurrence
import ClassDiagram.Proofs.Growth
import ClassDiagram.RenderPlan
import Mathlib.Data.List.Induction
import Mathlib.Data.List.Perm.Basic

/-!
# Render plans are induced subgraphs

The entities of a plan are those of the roots in drawing order, so they depend
on the set of entities alone. The relations are those between them, and the
neighbours are found along these relations, each where it is reached first.
These rules determine a plan, whatever the roots are that lead to it.
-/

namespace ClassDiagram

/-! ## The drawing order -/

namespace Ref

theorem before_irrefl (r : Ref) : r.before r = false := by
  cases r <;> simp [before]

theorem before_trans {r s t : Ref} (hrs : r.before s = true) (hst : s.before t = true) :
    r.before t = true := by
  cases r <;> cases s <;> cases t <;> simp only [before, decide_eq_true_eq] at hrs hst ⊢
  case registered.registered.registered i j k => omega
  case stub.stub.stub i j k => omega
  case registered.stub.registered => cases hst
  case stub.registered.registered => cases hrs
  case stub.registered.stub => cases hrs
  case stub.stub.registered => cases hst

theorem before_total {r s : Ref} (h : r ≠ s) : r.before s = true ∨ s.before r = true := by
  cases r <;> cases s <;> simp only [before, decide_eq_true_eq]
  case registered.registered i j =>
    have hij : i ≠ j := fun he => h (congrArg registered he)
    omega
  case stub.stub i j =>
    have hij : i ≠ j := fun he => h (congrArg stub he)
    omega
  case registered.stub => exact Or.inl trivial
  case stub.registered => exact Or.inr trivial

/-- Strictly in drawing order, so without repetitions. -/
def Ordered (refs : List Ref) : Prop :=
  refs.Pairwise fun r later => r.before later = true

theorem Ordered.nodup {refs : List Ref} (h : Ordered refs) : refs.Nodup := by
  apply h.imp
  rintro r later hlt rfl
  rw [before_irrefl] at hlt
  cases hlt

theorem mem_insertSorted (ref r : Ref) (refs : List Ref) :
    r ∈ ref.insertSorted refs ↔ r = ref ∨ r ∈ refs := by
  induction refs with
  | nil => simp [insertSorted]
  | cons first rest ih =>
      unfold insertSorted
      split
      · next he => simp [he]
      · split
        · exact List.mem_cons
        · rw [List.mem_cons, ih, List.mem_cons]
          exact or_left_comm

theorem Ordered.insertSorted (ref : Ref) {refs : List Ref} (h : Ordered refs) :
    Ordered (ref.insertSorted refs) := by
  induction refs with
  | nil => exact List.pairwise_singleton _ _
  | cons first rest ih =>
      obtain ⟨hfirst, hrest⟩ := List.pairwise_cons.mp h
      unfold Ref.insertSorted
      split
      · exact h
      · next hne =>
          split
          · next hlt =>
              refine List.pairwise_cons.mpr ⟨?_, h⟩
              intro later hl
              rcases List.mem_cons.mp hl with rfl | hl
              · exact hlt
              · exact before_trans hlt (hfirst later hl)
          · next hnot =>
              refine List.pairwise_cons.mpr ⟨?_, ih hrest⟩
              intro later hl
              rcases (mem_insertSorted ref later rest).mp hl with rfl | hl
              · exact (before_total hne).resolve_left hnot
              · exact hfirst later hl

theorem mem_sorted (r : Ref) (refs : List Ref) : r ∈ sorted refs ↔ r ∈ refs := by
  induction refs with
  | nil => exact Iff.rfl
  | cons first rest ih =>
      change r ∈ first.insertSorted (sorted rest) ↔ _
      rw [mem_insertSorted, ih, List.mem_cons]

theorem ordered_sorted (refs : List Ref) : Ordered (sorted refs) := by
  induction refs with
  | nil => exact List.Pairwise.nil
  | cons first rest ih => exact ih.insertSorted first

/-- Lists in drawing order with the same members are equal. -/
theorem Ordered.eq_of_mem_iff {refs refs' : List Ref} (h : Ordered refs) (h' : Ordered refs')
    (hm : ∀ r, r ∈ refs ↔ r ∈ refs') : refs = refs' := by
  have hperm : refs.Perm refs' := (List.perm_ext_iff_of_nodup h.nodup h'.nodup).mpr hm
  apply hperm.eq_of_pairwise ?_ h h'
  intro r s _ _ hrs hsr
  have hloop := before_trans hrs hsr
  rw [before_irrefl] at hloop
  cases hloop

end Ref

/-! ## What a plan shows -/

/-- The relation leads from one of the entities to another one of them, or anywhere if neighbours
are wanted. -/
def Relation.Drawn (objects : List Ref) (adjacent : Bool) (r : Relation) : Prop :=
  ∃ a b, r.a = .ref a ∧ r.b = .ref b ∧ a ∈ objects ∧ (b ∈ objects ∨ adjacent = true)

theorem Endpoint.ref?_eq_some_iff (e : Endpoint) (ref : Ref) :
    e.ref? = some ref ↔ e = .ref ref := by
  cases e <;> simp [ref?]

theorem View.shows_iff (objects : List Ref) (adjacent : Bool) (r : Relation) :
    View.shows objects adjacent r = true ↔ r.Drawn objects adjacent := by
  obtain ⟨a, b, kind⟩ := r
  cases a <;> cases b <;>
    simp [View.shows, Relation.Drawn, Endpoint.ref?]

instance (objects : List Ref) (adjacent : Bool) (r : Relation) :
    Decidable (r.Drawn objects adjacent) :=
  decidable_of_iff _ (View.shows_iff objects adjacent r)

/-- The plan is the part of the diagram that a selection of entities induces: the selection in
drawing order, the relations that are drawn beside it, and the entities outside it that these
relations lead to, in the order in which they are first reached. -/
structure RenderPlan.IsInduced (d : Diagram) (selected : Ref → Prop) (adjacent : Bool)
    (p : RenderPlan) : Prop where
  entity : ∀ e ∈ p.objects ++ p.adjacent, d.entity? e.1 = some e.2
  mem_objects : ∀ ref, ref ∈ p.objectRefs ↔ selected ref
  ordered : Ref.Ordered p.objectRefs
  relations : p.relations = d.relations.filter (·.Drawn p.objectRefs adjacent)
  mem_adjacent : ∀ ref, ref ∈ p.adjacentRefs ↔
    ref ∉ p.objectRefs ∧ ∃ r ∈ p.relations, r.b = .ref ref
  reached : p.adjacentRefs.Pairwise fun ref later =>
    p.relations.findIdx (·.b = .ref ref) < p.relations.findIdx (·.b = .ref later)

namespace RenderPlan.IsInduced

variable {d : Diagram} {selected : Ref → Prop} {adjacent : Bool} {p q : RenderPlan}

theorem nodup_adjacentRefs (h : p.IsInduced d selected adjacent) : p.adjacentRefs.Nodup := by
  apply h.reached.imp
  rintro ref later hlt rfl
  exact Nat.lt_irrefl _ hlt

theorem disjoint (h : p.IsInduced d selected adjacent) :
    ∀ ref ∈ p.adjacentRefs, ref ∉ p.objectRefs :=
  fun ref hr => ((h.mem_adjacent ref).mp hr).1

/-- Both ends of a relation in the plan are entities of the plan. -/
theorem ends (h : p.IsInduced d selected adjacent) {r : Relation} (hr : r ∈ p.relations) :
    ∃ a b, r.a = .ref a ∧ r.b = .ref b ∧ a ∈ p.objectRefs ∧
      b ∈ p.objectRefs ++ p.adjacentRefs := by
  have hdrawn : r.Drawn p.objectRefs adjacent := by
    rw [h.relations] at hr
    exact of_decide_eq_true (List.mem_filter.mp hr).2
  obtain ⟨a, b, ha, hb, hma, _⟩ := hdrawn
  refine ⟨a, b, ha, hb, hma, List.mem_append.mpr ?_⟩
  by_cases hmb : b ∈ p.objectRefs
  · exact Or.inl hmb
  · exact Or.inr ((h.mem_adjacent b).mpr ⟨hmb, r, hr, hb⟩)

theorem adjacent_eq_nil (h : p.IsInduced d selected false) : p.adjacent = [] := by
  apply List.map_eq_nil_iff.mp
  apply List.eq_nil_iff_forall_not_mem.mpr
  intro ref hm
  obtain ⟨hnot, r, hr, hb⟩ := (h.mem_adjacent ref).mp hm
  rw [h.relations] at hr
  obtain ⟨a, b, _, hb', _, hmb⟩ := of_decide_eq_true (List.mem_filter.mp hr).2
  rw [hb] at hb'
  cases hb'
  rcases hmb with hmb | hfalse
  · exact hnot hmb
  · cases hfalse

private theorem eq_of_map_fst_eq {xs ys : List (Ref × Entity)}
    (hx : ∀ e ∈ xs, d.entity? e.1 = some e.2) (hy : ∀ e ∈ ys, d.entity? e.1 = some e.2)
    (h : xs.map Prod.fst = ys.map Prod.fst) : xs = ys := by
  induction xs generalizing ys with
  | nil =>
      rw [List.map_nil] at h
      exact (List.map_eq_nil_iff.mp h.symm).symm
  | cons x xs ih =>
      cases ys with
      | nil => cases h
      | cons y ys =>
          obtain ⟨hxy, hrest⟩ := List.cons.inj h
          have hentity : x.2 = y.2 := by
            apply Option.some.inj
            rw [← hx x List.mem_cons_self, ← hy y List.mem_cons_self, hxy]
          have htail : xs = ys := ih (fun e he => hx e (List.mem_cons_of_mem _ he))
            (fun e he => hy e (List.mem_cons_of_mem _ he)) hrest
          rw [Prod.ext hxy hentity, htail]

/-- A selection induces one plan only. -/
theorem eq (hp : p.IsInduced d selected adjacent) (hq : q.IsInduced d selected adjacent) :
    p = q := by
  have hrefs : p.objectRefs = q.objectRefs := by
    apply hp.ordered.eq_of_mem_iff hq.ordered
    intro ref
    rw [hp.mem_objects, hq.mem_objects]
  have hrelations : p.relations = q.relations := by
    rw [hp.relations, hq.relations, hrefs]
  have hadjacent : p.adjacentRefs = q.adjacentRefs := by
    have hperm : p.adjacentRefs.Perm q.adjacentRefs := by
      apply (List.perm_ext_iff_of_nodup hp.nodup_adjacentRefs hq.nodup_adjacentRefs).mpr
      intro ref
      rw [hp.mem_adjacent, hq.mem_adjacent, hrefs, hrelations]
    apply hperm.eq_of_pairwise ?_ hp.reached (hrelations ▸ hq.reached)
    intro ref later _ _ hlt hgt
    exact absurd hlt (Nat.lt_asymm hgt)
  have hobjects : p.objects = q.objects :=
    eq_of_map_fst_eq (fun e he => hp.entity e (List.mem_append_left _ he))
      (fun e he => hq.entity e (List.mem_append_left _ he)) hrefs
  have hothers : p.adjacent = q.adjacent :=
    eq_of_map_fst_eq (fun e he => hp.entity e (List.mem_append_right _ he))
      (fun e he => hq.entity e (List.mem_append_right _ he)) hadjacent
  cases p
  cases q
  simp_all

end RenderPlan.IsInduced

/-! ## The plan of a view -/

namespace View

/-- All entities that the roots of a view stand for. -/
def refs (v : View) : List Ref :=
  v.roots.flatMap (·.collect)

/-- References that denote entities are all listed. -/
theorem map_fst_located {d : Diagram} {refs : List Ref}
    (h : ∀ ref ∈ refs, (d.entity? ref).isSome = true) :
    (refs.filterMap fun ref => (d.entity? ref).map (ref, ·)).map Prod.fst = refs := by
  induction refs with
  | nil => rfl
  | cons ref rest ih =>
      obtain ⟨e, he⟩ := Option.isSome_iff_exists.mp (h ref List.mem_cons_self)
      simp only [List.filterMap_cons, he, Option.map_some, List.map_cons]
      rw [ih fun r hr => h r (List.mem_cons_of_mem _ hr)]

theorem entity?_of_mem_located {d : Diagram} {refs : List Ref} {e : Ref × Entity}
    (h : e ∈ refs.filterMap fun ref => (d.entity? ref).map (ref, ·)) :
    d.entity? e.1 = some e.2 := by
  obtain ⟨ref, _, hsome⟩ := List.mem_filterMap.mp h
  obtain ⟨entity, hentity, rfl⟩ := Option.map_eq_some_iff.mp hsome
  exact hentity

variable {v : View} {d : Diagram}

theorem mem_rendered (ref : Ref) : ref ∈ v.rendered ↔ ref ∈ v.refs :=
  Ref.mem_sorted ref _

theorem relations_eq (v : View) (d : Diagram) :
    v.relations d = d.relations.filter (·.Drawn v.rendered v.adjacent) := by
  apply List.filter_congr
  intro r _
  exact Bool.eq_iff_iff.mpr (by rw [shows_iff, decide_eq_true_eq])

/-- What a relation adds to the neighbours. -/
def outside? (v : View) (r : Relation) : Option Ref :=
  r.b.ref?.filter (· ∉ v.rendered)

theorem outside?_eq_some_iff (r : Relation) (ref : Ref) :
    v.outside? r = some ref ↔ ref ∉ v.rendered ∧ r.b = .ref ref := by
  rw [outside?, Option.filter_eq_some_iff, Endpoint.ref?_eq_some_iff, decide_eq_true_eq, and_comm]

theorem neighbours_eq (v : View) (d : Diagram) :
    v.neighbours d = ((v.relations d).filterMap v.outside?).eraseDups := by
  rw [neighbours, List.filter_filterMap]
  rfl

theorem mem_neighbours (ref : Ref) :
    ref ∈ v.neighbours d ↔ ref ∉ v.rendered ∧ ∃ r ∈ v.relations d, r.b = .ref ref := by
  rw [neighbours_eq, List.mem_eraseDups, List.mem_filterMap]
  simp only [outside?_eq_some_iff]
  constructor
  · rintro ⟨r, hr, hnot, hb⟩
    exact ⟨hnot, r, hr, hb⟩
  · rintro ⟨hnot, r, hr, hb⟩
    exact ⟨r, hr, hnot, hb⟩

theorem pairwise_neighbours (v : View) (d : Diagram) :
    (v.neighbours d).Pairwise fun ref later =>
      (v.relations d).findIdx (·.b = .ref ref) < (v.relations d).findIdx (·.b = .ref later) := by
  have hreach : ∀ ref ∈ v.neighbours d, (v.relations d).findIdx (v.outside? · = some ref) =
      (v.relations d).findIdx (·.b = .ref ref) := by
    intro ref hr
    have hnot : ref ∉ v.rendered := ((mem_neighbours ref).mp hr).1
    simp only [outside?_eq_some_iff, hnot, not_false_eq_true, true_and]
  have hpair := pairwise_findIdx_eraseDups v.outside? (v.relations d)
  rw [← neighbours_eq] at hpair
  apply hpair.imp_of_mem
  intro ref later hr hl hlt
  rwa [hreach ref hr, hreach later hl] at hlt

theorem isSome_entity?_of_mem_neighbours (hd : d.Closed) {ref : Ref} (h : ref ∈ v.neighbours d) :
    (d.entity? ref).isSome = true := by
  obtain ⟨_, r, hr, hb⟩ := (mem_neighbours ref).mp h
  have hend : r.b ∈ d.endpoints := by
    apply (d.mem_endpoints_iff r.b).mpr
    exact ⟨r, (List.mem_filter.mp hr).1, by simp [Relation.ends]⟩
  exact hd r.b hend ref ((Endpoint.ref?_eq_some_iff r.b ref).mpr hb)

/-- In a diagram without dangling references, the plan of a view on entities of the diagram is
what these entities induce. -/
theorem isInduced_plan (hd : d.Closed) (hv : ∀ ref ∈ v.refs, (d.entity? ref).isSome = true) :
    (v.plan d).IsInduced d (· ∈ v.refs) v.adjacent := by
  have hobjects : (v.plan d).objectRefs = v.rendered :=
    map_fst_located fun ref hr => hv ref ((mem_rendered ref).mp hr)
  have hadjacent : (v.plan d).adjacentRefs = v.neighbours d :=
    map_fst_located fun ref hr => isSome_entity?_of_mem_neighbours hd hr
  constructor
  case entity =>
    intro e he
    rcases List.mem_append.mp he with he | he
    · exact entity?_of_mem_located he
    · exact entity?_of_mem_located he
  case mem_objects =>
    intro ref
    rw [hobjects, mem_rendered]
  case ordered =>
    rw [hobjects]
    exact Ref.ordered_sorted _
  case relations =>
    rw [hobjects]
    exact relations_eq v d
  case mem_adjacent =>
    intro ref
    rw [hobjects, hadjacent]
    exact mem_neighbours ref
  case reached =>
    rw [hadjacent]
    exact pairwise_neighbours v d

/-- The plan of a view on entities of a diagram without dangling references is the part that these
entities induce. It lists every entity once, draws no relation whose ends it does not list, and has
neighbours only if they are wanted; every view on the same entities has the same plan. -/
theorem plan_induced_subgraph (hd : d.Closed)
    (hv : ∀ ref ∈ v.refs, (d.entity? ref).isSome = true) :
    (v.plan d).IsInduced d (· ∈ v.refs) v.adjacent ∧
      (v.plan d).objectRefs.Nodup ∧ (v.plan d).adjacentRefs.Nodup ∧
      (∀ ref ∈ (v.plan d).adjacentRefs, ref ∉ (v.plan d).objectRefs) ∧
      (v.adjacent = false → (v.plan d).adjacent = []) ∧
      (∀ r ∈ (v.plan d).relations, ∃ a b, r.a = .ref a ∧ r.b = .ref b ∧
        a ∈ (v.plan d).objectRefs ∧ b ∈ (v.plan d).objectRefs ++ (v.plan d).adjacentRefs) ∧
      ∀ w : View, w.adjacent = v.adjacent → (∀ ref, ref ∈ w.refs ↔ ref ∈ v.refs) →
        w.plan d = v.plan d := by
  have hp := isInduced_plan hd hv
  refine ⟨hp, hp.ordered.nodup, hp.nodup_adjacentRefs, hp.disjoint, ?_, fun r hr => hp.ends hr, ?_⟩
  · intro hadjacent
    rw [hadjacent] at hp
    exact hp.adjacent_eq_nil
  · intro w hadjacent hrefs
    have hw := isInduced_plan hd fun ref hr => hv ref ((hrefs ref).mp hr)
    rw [hadjacent, funext fun ref => propext (hrefs ref)] at hw
    exact hw.eq hp

/-- A shop with its items, an owner in another package, two stubs, and relations of every sort
between them: parallel ones, a loop, one to a bare name. -/
def market : Diagram where
  objects := ((Table.empty.insert "Shop" (.ofKind .classKind "Shop" ["market"])).insert "Item"
      (.ofKind .enumKind "Item" ["market", "stock"])).insert "Owner"
    (.ofKind .interfaceKind "Owner" ["people"])
  stubs := (Table.empty.insert "Tax" (.placeholder "Tax")).insert "Depot" (.placeholder "Depot")
  relations := [.associate (.registered 0) (.registered 1) (.ofRoleB "items"),
    .associate (.registered 1) (.stub 1) (.ofRoleB "depot"),
    .associate (.registered 0) (.registered 1) (.ofRoleB "items"),
    .associate (.registered 0) (.registered 0) (.ofRoleB "branch"),
    ⟨.ref (.registered 0), .name "Street", .inheritance⟩,
    ⟨.ref (.registered 2), .ref (.registered 0), .implements⟩,
    ⟨.ref (.stub 0), .ref (.registered 2), .implements⟩,
    ⟨.ref (.registered 0), .ref (.stub 1), .inheritance⟩]

/-- The tax and the package of the shop, and the shop once more, with neighbours. -/
def tour : View where
  roots := [.object (.stub 0),
    .package ((market.packageTree.get? ["market"]).getD (Package.empty [])),
    .object (.registered 0)]
  adjacent := true

/-- The tour shows the shop, its items and the tax, and next to them the depot before the owner,
which is reached later. The same entities as single roots give the same plan. -/
theorem plan_induced_subgraph_tour_market :
    market.Closed ∧ (∀ ref ∈ tour.refs, (market.entity? ref).isSome = true) ∧
      tour.refs = [.stub 0, .registered 0, .registered 1, .registered 0] ∧
      (tour.plan market).objectRefs = [.registered 0, .registered 1, .stub 0] ∧
      (tour.plan market).adjacentRefs = [.stub 1, .registered 2] ∧
      (tour.plan market).relations.map (market.relations.idxOf ·) = [0, 1, 0, 3, 6, 7] ∧
      (tour.plan market).IsInduced market (· ∈ tour.refs) true ∧
      View.plan ⟨[.registered 1, .stub 0, .registered 0].map .object, true⟩ market =
        tour.plan market := by
  have hd : market.Closed := by decide
  have hv : ∀ ref ∈ tour.refs, (market.entity? ref).isSome = true := by decide
  obtain ⟨hinduced, _, _, _, _, _, hsame⟩ := plan_induced_subgraph hd hv
  refine ⟨hd, hv, by decide, by decide, by decide, by decide, hinduced, hsame _ rfl ?_⟩
  intro ref
  have hrefs : tour.refs = [.stub 0, .registered 0, .registered 1, .registered 0] := by decide
  rw [hrefs]
  simp [refs, Root.collect]
  tauto

end View

end ClassDiagram
