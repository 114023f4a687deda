import ClassDiagram.Proofs.AnnotationOutcomes
import ClassDiagram.Proofs.PackageTree

/-!
# Merged and split relations

What the types of an entity's attributes lead to is drawn with one relation for
each target, or with one for each role. Both draw the same groups: the settings
choose the labels, and neither the targets nor their order, nor anything that
annotations lead to.

## Implementation notes

The groups of one entity have distinct targets, and declared entities have
distinct references. A relation of a type therefore tells its group by its two
ends, and the roles of a merged relation can be read off the split relations
between the same ends.
-/

namespace ClassDiagram

/-! ## Lists by keys -/

section Keyed

variable {α β κ : Type} [DecidableEq κ] {key : α → κ} {tag : β → κ} {f : α → List β}
  {xs : List α}

theorem filter_flatMap_of_notMem (hf : ∀ x ∈ xs, ∀ y ∈ f x, tag y = key x) {k : κ}
    (hk : k ∉ xs.map key) : (xs.flatMap f).filter (tag · = k) = [] := by
  apply List.filter_eq_nil_iff.mpr
  intro y hy htag
  obtain ⟨x, hx, hyx⟩ := List.mem_flatMap.mp hy
  have hkey : key x = k := (hf x hx y hyx).symm.trans (of_decide_eq_true htag)
  exact hk (hkey ▸ List.mem_map_of_mem hx)

/-- Where keys are distinct, the elements with the key of `x` are those that come from `x`. -/
theorem filter_flatMap_of_mem (hf : ∀ x ∈ xs, ∀ y ∈ f x, tag y = key x)
    (hn : (xs.map key).Nodup) {x : α} (hx : x ∈ xs) :
    (xs.flatMap f).filter (tag · = key x) = f x := by
  obtain ⟨before, behind, rfl⟩ := List.append_of_mem hx
  rw [List.map_append, List.map_cons, List.nodup_append, List.nodup_cons] at hn
  obtain ⟨-, ⟨hbehind, -⟩, hdisjoint⟩ := hn
  have hbefore : key x ∉ before.map key := fun hm => hdisjoint _ hm _ List.mem_cons_self rfl
  have hown : (f x).filter (tag · = key x) = f x :=
    List.filter_eq_self.mpr fun y hy => decide_eq_true (hf x hx y hy)
  calc ((before ++ x :: behind).flatMap f).filter (tag · = key x)
      = (before.flatMap f).filter (tag · = key x) ++ ((f x).filter (tag · = key x) ++
          (behind.flatMap f).filter (tag · = key x)) := by
        rw [List.flatMap_append, List.flatMap_cons, List.filter_append, List.filter_append]
    _ = [] ++ (f x ++ []) := by
        rw [filter_flatMap_of_notMem (fun y hy => hf y (List.mem_append_left _ hy)) hbefore, hown,
          filter_flatMap_of_notMem
            (fun y hy => hf y (List.mem_append_right _ (List.mem_cons_of_mem x hy))) hbehind]
    _ = f x := by rw [List.nil_append, List.append_nil]

theorem eraseDups_replicate_succ (n : Nat) (k : κ) :
    (List.replicate (n + 1) k).eraseDups = [k] := by
  rw [List.replicate_succ, List.eraseDups_cons]
  simp

/-- Where every element leads to something, the keys are all that is met, in their order. -/
theorem eraseDups_map_flatMap (hf : ∀ x ∈ xs, ∀ y ∈ f x, tag y = key x)
    (hn : (xs.map key).Nodup) (hne : ∀ x ∈ xs, f x ≠ []) :
    ((xs.flatMap f).map tag).eraseDups = xs.map key := by
  induction xs with
  | nil => rfl
  | cons x rest ih =>
      -- what comes from `x` is its key, repeated, and the rest has other keys
      obtain ⟨hx, hrest⟩ := List.nodup_cons.mp hn
      obtain ⟨n, hlength⟩ := Nat.exists_eq_succ_of_ne_zero
        (mt List.length_eq_zero_iff.mp (hne x List.mem_cons_self))
      have hfirst : (f x).map tag = List.replicate (n + 1) (key x) := by
        apply List.eq_replicate_iff.mpr
        refine ⟨by rw [List.length_map, hlength], ?_⟩
        intro k hk
        obtain ⟨y, hy, rfl⟩ := List.mem_map.mp hk
        exact hf x List.mem_cons_self y hy
      have hlater : ((rest.flatMap f).map tag).removeAll (List.replicate (n + 1) (key x)) =
          (rest.flatMap f).map tag := by
        apply List.filter_eq_self.mpr
        intro k hk
        obtain ⟨y, hy, rfl⟩ := List.mem_map.mp hk
        obtain ⟨x', hx', hyx⟩ := List.mem_flatMap.mp hy
        have hother : tag y ≠ key x := by
          rw [hf x' (List.mem_cons_of_mem x hx') y hyx]
          exact fun he => hx (he ▸ List.mem_map_of_mem hx')
        simpa using hother
      rw [List.flatMap_cons, List.map_append, hfirst, List.eraseDups_append,
        eraseDups_replicate_succ, hlater,
        ih (fun y hy => hf y (List.mem_cons_of_mem x hy)) hrest
          (fun y hy => hne y (List.mem_cons_of_mem x hy))]
      rfl

end Keyed

section Grouping

variable {κ α : Type} [DecidableEq κ] {uses : List (κ × α)} {groups : List (κ × List α)}

theorem IsGrouping.nodup_keys (h : IsGrouping uses groups) : (groups.map Prod.fst).Nodup := by
  apply h.order.imp
  rintro key later hlt rfl
  exact Nat.lt_irrefl _ hlt

theorem IsGrouping.values_ne_nil (h : IsGrouping uses groups) {g : κ × List α} (hg : g ∈ groups) :
    g.2 ≠ [] := by
  obtain ⟨use, hu, hkey⟩ := List.mem_map.mp ((h.mem_keys g.1).mp (List.mem_map_of_mem hg))
  rw [h.values g hg]
  apply List.ne_nil_of_mem (a := use.2)
  exact List.mem_map_of_mem (List.mem_filter.mpr ⟨hu, decide_eq_true hkey⟩)

end Grouping

/-! ## Settings and labels -/

namespace AssociationSettings

/-- One relation for each target. -/
def merged (maxRoles : Int) : AssociationSettings :=
  { merge := true, maxRoles }

/-- One relation for each role. -/
def split (maxRoles : Int) : AssociationSettings :=
  { merge := false, maxRoles }

end AssociationSettings

namespace Relation

/-- The role at the far end of an association. -/
def roleB (r : Relation) : String :=
  match r.kind with
  | .association a => a.roleB
  | .inheritance | .implements => ""

/-- The relation without a role at its far end. -/
def unlabelled (r : Relation) : Relation :=
  match r.kind with
  | .association a => { r with kind := .association { a with roleB := "" } }
  | .inheritance | .implements => r

end Relation

namespace Diagram

open AssociationSettings

/-! ## The groups of an entity -/

/-- The targets that the types of an entity's attributes lead to, each with its roles. -/
def groups (d : Diagram) (e : Ref × Entity) : List (Ref × List String) :=
  if e.2.doc.hasTag noAssocTag then [] else recordAll (d.uses e.2)

theorem typeRelations_eq (d : Diagram) (s : AssociationSettings) (e : Ref × Entity) :
    d.typeRelations s e = (d.groups e).flatMap (groupRelations s e.1) := by
  unfold typeRelations groups
  split <;> rfl

theorem nodup_groups (d : Diagram) (e : Ref × Entity) : ((d.groups e).map Prod.fst).Nodup := by
  unfold groups
  split
  · exact List.nodup_nil
  · exact (isGrouping_recordAll (d.uses e.2)).nodup_keys

theorem roles_ne_nil {d : Diagram} {e : Ref × Entity} {g : Ref × List String}
    (hg : g ∈ d.groups e) : g.2 ≠ [] := by
  unfold groups at hg
  split at hg
  · cases hg
  · exact (isGrouping_recordAll (d.uses e.2)).values_ne_nil hg

section GroupRelations

variable (s : AssociationSettings) (source : Ref) (g : Ref × List String)

theorem ends_of_mem_groupRelations {r : Relation} (hr : r ∈ groupRelations s source g) :
    r.a = .ref source ∧ r.b = .ref g.1 := by
  unfold groupRelations at hr
  split at hr
  · obtain rfl := List.mem_singleton.mp hr
    exact ⟨rfl, rfl⟩
  · obtain ⟨role, _, rfl⟩ := List.mem_map.mp hr
    exact ⟨rfl, rfl⟩

theorem groupRelations_ne_nil {g : Ref × List String} (hg : g.2 ≠ []) :
    groupRelations s source g ≠ [] := by
  unfold groupRelations
  split
  · exact List.cons_ne_nil _ _
  · exact mt List.map_eq_nil_iff.mp hg

theorem map_roleB_split (maxRoles : Int) :
    (groupRelations (split maxRoles) source g).map (·.roleB) = g.2 := by
  have hlist : groupRelations (split maxRoles) source g =
      g.2.map fun role => ⟨.ref source, .ref g.1, .association { roleB := role }⟩ := rfl
  rw [hlist, List.map_map]
  exact List.map_id _

theorem roleB_of_mem_merged {maxRoles : Int} (hm : maxRoles < 0) {r : Relation}
    (hr : r ∈ groupRelations (merged maxRoles) source g) : r.roleB = ", ".intercalate g.2 := by
  obtain rfl := List.mem_singleton.mp hr
  exact if_pos (Or.inl hm)

/-- The relation of a group loses its label where there are too many roles. -/
theorem groupRelations_merged (maxRoles : Int) :
    groupRelations (merged maxRoles) source g =
      (groupRelations (merged (-1)) source g).map fun r =>
        if 0 ≤ maxRoles ∧ maxRoles < g.2.length then r.unlabelled else r := by
  by_cases hmany : 0 ≤ maxRoles ∧ maxRoles < g.2.length
  · have hlabel : ¬ (maxRoles < 0 ∨ (g.2.length : Int) ≤ maxRoles) := by omega
    simp [groupRelations, merged, hlabel, hmany, Relation.unlabelled]
  · have hlabel : maxRoles < 0 ∨ (g.2.length : Int) ≤ maxRoles := by omega
    simp [groupRelations, merged, hlabel, hmany]

end GroupRelations

/-! ## Relations by their ends -/

/-- The relations that the types of all declared entities lead to. -/
def inferredRelations (d : Diagram) (s : AssociationSettings) : List Relation :=
  d.declared.flatMap (d.typeRelations s)

/-- The targets of relations from a source, each once, in the order of the relations. -/
def distinctTargets (source : Ref) (rs : List Relation) : List Endpoint :=
  ((rs.filter (·.a = .ref source)).map (·.b)).eraseDups

/-- The roles on the relations with the ends of `r`, in order. -/
def rolesAlong (r : Relation) (rs : List Relation) : List String :=
  (rs.filter fun other => other.a = r.a ∧ other.b = r.b).map (·.roleB)

variable {d : Diagram} {e : Ref × Entity} {g : Ref × List String}

theorem a_of_mem_typeRelations {s : AssociationSettings} {r : Relation}
    (hr : r ∈ d.typeRelations s e) : r.a = .ref e.1 := by
  rw [typeRelations_eq] at hr
  obtain ⟨g, _, hrg⟩ := List.mem_flatMap.mp hr
  exact (ends_of_mem_groupRelations s e.1 g hrg).1

theorem nodup_map_ref {β : Type} {xs : List (Ref × β)} (h : (xs.map Prod.fst).Nodup) :
    (xs.map fun x => Endpoint.ref x.1).Nodup := by
  have hmap : xs.map (fun x => Endpoint.ref x.1) = (xs.map Prod.fst).map Endpoint.ref :=
    (List.map_map ..).symm
  rw [hmap]
  exact h.map fun _ _ => Endpoint.ref.inj

/-- The relations from a declared entity are those of its own types. -/
theorem filter_inferredRelations (s : AssociationSettings) (he : e ∈ d.declared) :
    (d.inferredRelations s).filter (·.a = .ref e.1) = d.typeRelations s e :=
  filter_flatMap_of_mem (fun _ _ _ hr => a_of_mem_typeRelations hr)
    (nodup_map_ref d.nodup_declared) he

/-- The relations from an entity to a target are those of one group. -/
theorem filter_typeRelations (s : AssociationSettings) (hg : g ∈ d.groups e) :
    (d.typeRelations s e).filter (·.b = .ref g.1) = groupRelations s e.1 g := by
  rw [typeRelations_eq]
  exact filter_flatMap_of_mem (fun g _ _ hr => (ends_of_mem_groupRelations s e.1 g hr).2)
    (nodup_map_ref (d.nodup_groups e)) hg

theorem rolesAlong_split {r : Relation} {s : AssociationSettings} (he : e ∈ d.declared)
    (hg : g ∈ d.groups e) (hr : r ∈ groupRelations s e.1 g) (maxRoles : Int) :
    rolesAlong r (d.inferredRelations (split maxRoles)) = g.2 := by
  obtain ⟨ha, hb⟩ := ends_of_mem_groupRelations s e.1 g hr
  have hends : (d.inferredRelations (split maxRoles)).filter
        (fun other => other.a = r.a ∧ other.b = r.b) =
      ((d.inferredRelations (split maxRoles)).filter (·.a = .ref e.1)).filter
        (·.b = .ref g.1) := by
    rw [List.filter_filter, ha, hb]
    apply List.filter_congr
    intro other _
    rw [← Bool.decide_and]
    exact decide_eq_decide.mpr and_comm
  rw [rolesAlong, hends, filter_inferredRelations _ he, filter_typeRelations _ hg,
    map_roleB_split]

/-- The settings have no part in what the targets of a source are, nor in their order. -/
theorem distinctTargets_inferredRelations (d : Diagram) (s s' : AssociationSettings)
    (source : Ref) :
    distinctTargets source (d.inferredRelations s) =
      distinctTargets source (d.inferredRelations s') := by
  by_cases hs : Endpoint.ref source ∈ d.declared.map fun e => Endpoint.ref e.1
  · obtain ⟨e, he, hsource⟩ := List.mem_map.mp hs
    obtain rfl := Endpoint.ref.inj hsource
    have htargets (s : AssociationSettings) :
        distinctTargets e.1 (d.inferredRelations s) =
          (d.groups e).map fun g => Endpoint.ref g.1 := by
      rw [distinctTargets, filter_inferredRelations s he, typeRelations_eq]
      exact eraseDups_map_flatMap (fun g _ _ hr => (ends_of_mem_groupRelations s e.1 g hr).2)
        (nodup_map_ref (d.nodup_groups e)) fun g hg => groupRelations_ne_nil s e.1 (roles_ne_nil hg)
    rw [htargets, htargets]
  · have hnone (s : AssociationSettings) :
        distinctTargets source (d.inferredRelations s) = [] := by
      have hfilter : (d.inferredRelations s).filter (·.a = .ref source) = [] :=
        filter_flatMap_of_notMem (fun _ _ _ hr => a_of_mem_typeRelations hr) hs
      rw [distinctTargets, hfilter]
      rfl
    rw [hnone, hnone]

theorem roleB_merged {maxRoles : Int} (hm : maxRoles < 0) {r : Relation}
    (hr : r ∈ d.inferredRelations (merged maxRoles)) (other : Int) :
    r.roleB = ", ".intercalate (rolesAlong r (d.inferredRelations (split other))) := by
  obtain ⟨e, he, hre⟩ := List.mem_flatMap.mp hr
  rw [typeRelations_eq] at hre
  obtain ⟨g, hg, hrg⟩ := List.mem_flatMap.mp hre
  rw [rolesAlong_split he hg hrg, roleB_of_mem_merged e.1 g hm hrg]

/-- Of merged relations, those with too many roles lose their labels, and nothing else changes. -/
theorem typeRelations_merged (he : e ∈ d.declared) (maxRoles other : Int) :
    d.typeRelations (merged maxRoles) e = (d.typeRelations (merged (-1)) e).map fun r =>
      if 0 ≤ maxRoles ∧
          maxRoles < (rolesAlong r (d.inferredRelations (split other))).length then r.unlabelled
      else r := by
  rw [typeRelations_eq, typeRelations_eq, List.map_flatMap]
  apply List.flatMap_congr
  intro g hg
  rw [groupRelations_merged]
  apply List.map_congr_left
  intro r hr
  rw [rolesAlong_split he hg hr]

/-! ## Whole diagrams -/

/-- The settings decide about the relations of types alone. -/
theorem associate_eq_typeRelations (h : d.inferred = false) (s : AssociationSettings) :
    d.associate s = { d with
      relations := d.relations ++ d.declared.flatMap fun e =>
        Finding.relations (d.tagFindings e) ++ d.typeRelations s e
      diagnostics := d.diagnostics ++ d.declared.flatMap fun e =>
        Finding.warnings (d.tagFindings e)
      inferred := true } := by
  rw [← relations_associate_eq h s, ← diagnostics_associate_eq h s, associate,
    if_neg (by simp [h])]

/-- Drawing one relation for each target, or one for each role, makes the same diagram but for the
relations of types: the warnings and the relations of annotations do not depend on the settings.
From every source both draw the same targets in the same order. A merged relation has the roles of
the split relations between its ends, in their order; more roles than allowed empty its label, and
that is all the limit does. -/
theorem associate_merged_split (h : d.inferred = false) :
    (∀ s, d.associate s = { d with
      relations := d.relations ++ d.declared.flatMap fun e =>
        Finding.relations (d.tagFindings e) ++ d.typeRelations s e
      diagnostics := d.diagnostics ++ d.declared.flatMap fun e =>
        Finding.warnings (d.tagFindings e)
      inferred := true }) ∧
    (∀ maxRoles other source,
      distinctTargets source (d.inferredRelations (merged maxRoles)) =
        distinctTargets source (d.inferredRelations (split other))) ∧
    (∀ maxRoles < 0, ∀ other, ∀ r ∈ d.inferredRelations (merged maxRoles),
      r.roleB = ", ".intercalate (rolesAlong r (d.inferredRelations (split other)))) ∧
    (∀ maxRoles other, d.associate (split maxRoles) = d.associate (split other)) ∧
    ∀ maxRoles other, ∀ e ∈ d.declared,
      d.typeRelations (merged maxRoles) e = (d.typeRelations (merged (-1)) e).map fun r =>
        if 0 ≤ maxRoles ∧
            maxRoles < (rolesAlong r (d.inferredRelations (split other))).length then r.unlabelled
        else r := by
  refine ⟨associate_eq_typeRelations h, ?_, ?_, ?_, ?_⟩
  · intro maxRoles other source
    exact d.distinctTargets_inferredRelations _ _ source
  · intro maxRoles hm other r hr
    exact roleB_merged hm hr other
  · intro maxRoles other
    rw [associate_eq_typeRelations h, associate_eq_typeRelations h]
    rfl
  · intro maxRoles other e he
    exact typeRelations_merged he maxRoles other

/-- The order names its customer three times and itself once. With at most two roles the label of
the first relation goes, and the second keeps its only role. -/
theorem associate_merged_split_purchase :
    purchase.inferred = false ∧
      distinctTargets (.registered 0) (purchase.inferredRelations (merged 2)) =
        [.ref (.registered 2), .ref (.registered 0)] ∧
      (∀ r ∈ purchase.inferredRelations (merged (-1)), r.roleB = ", ".intercalate
        (rolesAlong r (purchase.inferredRelations (split 0)))) ∧
      (purchase.inferredRelations (split 0)).map (·.roleB) =
        ["payer", "parts", "receiver", "parts"] ∧
      purchase.associate (split 0) = purchase.associate (split 2) ∧
      purchase.inferredRelations (merged 2) =
        [.associate (.registered 0) (.registered 2) {},
          .associate (.registered 0) (.registered 0) { roleB := "parts" }] := by
  obtain ⟨-, htargets, hroles, hsplit, hlimit⟩ := associate_merged_split (d := purchase) rfl
  have hlimited : purchase.inferredRelations (merged 2) = _ :=
    List.flatMap_congr fun e he => hlimit 2 0 e he
  exact ⟨rfl, (htargets 2 0 _).trans (by decide +kernel), hroles (-1) (by decide) 0,
    by decide +kernel, hsplit 0 2, hlimited.trans (by decide +kernel)⟩

end Diagram

end ClassDiagram
