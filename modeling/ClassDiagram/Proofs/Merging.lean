import ClassDiagram.Proofs.Atomicity
import Mathlib.Data.List.Induction
import Mathlib.Data.Option.NAry

/-!
# Merging is a union that prefers the first side

Two declarations of one kind are merged field by field. A list of the first one
goes on with what the second one adds under new keys, a field that can be empty
is filled from the second one only where it is empty, and a flag is set if it is
set on either side. Two declarations of different kinds are refused.

## Implementation notes

`merge` returns no entity when it fails. To say what becomes of the first
entity then, `mergeInPlace` changes it one field after the other, and an error
that it raises comes with the state that was reached.
-/

namespace ClassDiagram

/-! ## Lists -/

section UnionBy

variable {α : Type} (key : α → String)

/-- The elements of `incoming`, in order, whose keys stand neither in `present` nor at an earlier
element of `incoming`. -/
def newBy (present incoming : List α) : List α :=
  (incoming.zipIdx.filter fun m =>
    key m.1 ∉ present.map key ∧ key m.1 ∉ (incoming.take m.2).map key).map Prod.fst

/-- `united` is `present` with the new elements of `incoming` behind it. It has the keys of both,
and repeats none if `present` repeats none. -/
structure IsUnionBy (present incoming united : List α) : Prop where
  eq_append : united = present ++ newBy key present incoming
  mem_keys : ∀ k, k ∈ united.map key ↔ k ∈ present.map key ∨ k ∈ incoming.map key
  nodup : (present.map key).Nodup → (united.map key).Nodup

theorem newBy_append_singleton (present incoming : List α) (new : α) :
    newBy key present (incoming ++ [new]) = newBy key present incoming ++
      if key new ∈ present.map key ∨ key new ∈ incoming.map key then [] else [new] := by
  -- the last element takes no part in what stands before the others
  have hold : incoming.zipIdx.filter (fun m =>
        key m.1 ∉ present.map key ∧ key m.1 ∉ ((incoming ++ [new]).take m.2).map key) =
      incoming.zipIdx.filter (fun m =>
        key m.1 ∉ present.map key ∧ key m.1 ∉ (incoming.take m.2).map key) := by
    apply List.filter_congr
    intro m hm
    have hlt : m.2 < incoming.length := by
      simpa using List.snd_lt_of_mem_zipIdx hm
    rw [List.take_append_of_le_length (Nat.le_of_lt hlt)]
  have hbefore : (incoming ++ [new]).take incoming.length = incoming := List.take_left' rfl
  unfold newBy
  rw [List.zipIdx_append, List.filter_append, List.map_append, hold, List.zipIdx_singleton,
    Nat.zero_add]
  congr 1
  by_cases hk : key new ∈ present.map key ∨ key new ∈ incoming.map key
  · have hknown : ¬ (key new ∉ present.map key ∧
        key new ∉ ((incoming ++ [new]).take incoming.length).map key) := by
      rw [hbefore, ← not_or]
      exact not_not_intro hk
    rw [if_pos hk, List.filter_cons_of_neg (by simpa only [decide_eq_true_eq] using hknown)]
    rfl
  · have hnew : key new ∉ present.map key ∧
        key new ∉ ((incoming ++ [new]).take incoming.length).map key := by
      rw [hbefore]
      exact not_or.mp hk
    rw [if_neg hk, List.filter_cons_of_pos (by simpa only [decide_eq_true_eq] using hnew)]
    rfl

theorem uniteBy_append_singleton (present incoming : List α) (new : α) :
    uniteBy key present (incoming ++ [new]) = addBy key (uniteBy key present incoming) new := by
  rw [uniteBy, List.foldl_append]
  rfl

theorem uniteBy_eq_append_newBy (present incoming : List α) :
    uniteBy key present incoming = present ++ newBy key present incoming := by
  induction incoming using List.reverseRecOn with
  | nil => simp [uniteBy, newBy]
  | append_singleton incoming new ih =>
      rw [uniteBy_append_singleton, newBy_append_singleton, ← List.append_assoc, ← ih]
      split
      · next hk =>
          rw [List.append_nil]
          exact addBy_of_mem key ((mem_map_uniteBy key present incoming _).mpr hk)
      · next hk =>
          exact addBy_of_not_mem key (mt (mem_map_uniteBy key present incoming _).mp hk)

theorem nodup_map_addBy {present : List α} (h : (present.map key).Nodup) (new : α) :
    ((addBy key present new).map key).Nodup := by
  by_cases hk : key new ∈ present.map key
  · rw [addBy_of_mem key hk]
    exact h
  · rw [addBy_of_not_mem key hk, List.map_append, List.map_singleton]
    apply List.nodup_append.mpr
    refine ⟨h, by simp, ?_⟩
    rintro k hmem _ hnew rfl
    exact hk (List.mem_singleton.mp hnew ▸ hmem)

theorem nodup_map_uniteBy {present : List α} (h : (present.map key).Nodup) (incoming : List α) :
    ((uniteBy key present incoming).map key).Nodup := by
  induction incoming using List.reverseRecOn with
  | nil => exact h
  | append_singleton incoming new ih =>
      rw [uniteBy_append_singleton]
      exact nodup_map_addBy key ih new

theorem isUnionBy_uniteBy (present incoming : List α) :
    IsUnionBy key present incoming (uniteBy key present incoming) where
  eq_append := uniteBy_eq_append_newBy key present incoming
  mem_keys := mem_map_uniteBy key present incoming
  nodup h := nodup_map_uniteBy key h incoming

theorem isUnionBy_nil : IsUnionBy key [] [] [] :=
  isUnionBy_uniteBy key [] []

end UnionBy

theorem isUnionBy_uniteMembers (present incoming : List Member) :
    IsUnionBy Member.signature present incoming (uniteMembers present incoming) :=
  isUnionBy_uniteBy Member.signature present incoming

theorem isUnionBy_uniteTexts (present incoming : List String) :
    IsUnionBy id present incoming (uniteTexts present incoming) := by
  rw [uniteTexts_eq_uniteBy]
  exact isUnionBy_uniteBy id present incoming

namespace Entity

/-! ## Two declarations of one kind -/

/-- What merging makes of two declarations of one kind. -/
structure IsUnion (e other merged : Entity) : Prop where
  name : merged.name = e.name
  kind : merged.kind = e.kind
  attributes : IsUnionBy Member.signature e.attributes other.attributes merged.attributes
  constructors : IsUnionBy Member.signature e.constructors other.constructors merged.constructors
  methods : IsUnionBy Member.signature e.methods other.methods merged.methods
  constants : IsUnionBy Member.signature e.constants other.constants merged.constants
  stereotypes : IsUnionBy id e.stereotypes other.stereotypes merged.stereotypes
  package : merged.package = if e.package = [] then other.package else e.package
  doc : merged.doc = if e.doc.text = "" ∧ e.doc.tags = [] then other.doc else e.doc
  generics : merged.generics = if e.generics = [] then other.generics else e.generics
  isAbstract : merged.isAbstract? = Option.map₂ (· || ·) e.isAbstract? other.isAbstract?
  important : merged.important = (e.important || other.important)

/-- The lists of a united content, and its flag. A list that a kind does not have is empty. -/
theorem isUnionBy_lists {e other : Entity} {content : Content}
    (h : e.content.unite? other.content = some content) :
    IsUnionBy Member.signature e.attributes other.attributes
        (e.unite other content).attributes ∧
      IsUnionBy Member.signature e.constructors other.constructors
        (e.unite other content).constructors ∧
      IsUnionBy Member.signature e.methods other.methods (e.unite other content).methods ∧
      IsUnionBy Member.signature e.constants other.constants (e.unite other content).constants ∧
      (e.unite other content).isAbstract? =
        Option.map₂ (· || ·) e.isAbstract? other.isAbstract? := by
  obtain ⟨name, own, package, doc, stereotypes, generics, important⟩ := e
  obtain ⟨name', incoming, package', doc', stereotypes', generics', important'⟩ := other
  cases own <;> cases incoming <;> simp only [Content.unite?, Option.some.injEq, reduceCtorEq] at h
  case classContent.classContent body body' =>
    subst h
    exact ⟨isUnionBy_uniteMembers .., isUnionBy_uniteMembers .., isUnionBy_uniteMembers ..,
      isUnionBy_nil _, rfl⟩
  case enumContent.enumContent body constants body' constants' =>
    subst h
    exact ⟨isUnionBy_uniteMembers .., isUnionBy_uniteMembers .., isUnionBy_uniteMembers ..,
      isUnionBy_uniteMembers .., rfl⟩
  case interfaceContent.interfaceContent methods methods' =>
    subst h
    exact ⟨isUnionBy_nil _, isUnionBy_nil _, isUnionBy_uniteMembers .., isUnionBy_nil _, rfl⟩

theorem isUnion_unite {e other : Entity} {content : Content}
    (h : e.content.unite? other.content = some content) :
    e.IsUnion other (e.unite other content) := by
  obtain ⟨hattributes, hconstructors, hmethods, hconstants, hflag⟩ := isUnionBy_lists h
  exact {
    name := rfl
    kind := (Content.kind_of_unite? h).2
    attributes := hattributes
    constructors := hconstructors
    methods := hmethods
    constants := hconstants
    stereotypes := isUnionBy_uniteTexts e.stereotypes other.stereotypes
    package := by simp only [unite, List.isEmpty_iff]
    doc := by
      simp only [unite, Comment.isEmpty, Bool.and_eq_true, String.isEmpty_iff, List.isEmpty_iff]
    generics := by simp only [unite, List.isEmpty_iff]
    isAbstract := hflag
    important := rfl }

theorem isUnion_of_merge {e other merged : Entity} (he : e.isPlaceholder = false)
    (ho : other.isPlaceholder = false) (h : e.merge other = .ok merged) :
    e.IsUnion other merged := by
  obtain ⟨content, hc, rfl⟩ := (merge_declared_eq_ok_iff he ho).mp h
  exact isUnion_unite hc

/-! ## Merging in place -/

/-- Take the package of another entity unless there is one. -/
def fillPackage (other : Entity) : EStateM ModelError Entity Unit :=
  modify fun e => { e with package := if e.package.isEmpty then other.package else e.package }

/-- Put a declaration in the place of a placeholder, and add the stereotypes of the placeholder. -/
def completeInPlace (other : Entity) (stereotypes : List String) :
    EStateM ModelError Entity Unit := do
  set other
  modify fun e => { e with stereotypes := uniteTexts e.stereotypes stereotypes }

/-- Change a declaration into its union with another one, field by field. -/
def uniteInPlace (other : Entity) (content : Content) : EStateM ModelError Entity Unit := do
  modify fun e => { e with content := content }
  fillPackage other
  modify fun e => { e with doc := if e.doc.isEmpty then other.doc else e.doc }
  modify fun e => { e with generics := if e.generics.isEmpty then other.generics else e.generics }
  modify fun e => { e with stereotypes := uniteTexts e.stereotypes other.stereotypes }
  modify fun e => { e with important := e.important || other.important }

/-- Change an entity into the merge of it with another one, step by step. -/
def mergeInPlace (other : Entity) : EStateM ModelError Entity Unit := do
  let e ← get
  if other.isPlaceholder then
    fillPackage other
  else if e.isPlaceholder then
    completeInPlace other e.stereotypes
  else
    match e.content.unite? other.content with
    | none => throw (.kindConflict other.name e.kind other.kind)
    | some content => uniteInPlace other content

theorem run_uniteInPlace (e other : Entity) (content : Content) :
    (uniteInPlace other content).run e = .ok () (e.unite other content) := rfl

/-- Merging in place ends in the merged entity, or with the error in the entity as it was. -/
theorem run_mergeInPlace (e other : Entity) :
    (mergeInPlace other).run e =
      match e.merge other with
      | .ok merged => .ok () merged
      | .error error => .error error e := by
  have hrun : (mergeInPlace other).run e =
      (if other.isPlaceholder then fillPackage other
        else if e.isPlaceholder then completeInPlace other e.stereotypes
        else match e.content.unite? other.content with
          | none => throw (.kindConflict other.name e.kind other.kind)
          | some content => uniteInPlace other content).run e := rfl
  cases ho : other.isPlaceholder with
  | true =>
      rw [hrun, if_pos ho, merge_placeholder_right ho]
      rfl
  | false =>
      rw [ho, if_neg Bool.false_ne_true] at hrun
      cases he : e.isPlaceholder with
      | true =>
          rw [hrun, if_pos he, merge_placeholder_left he ho]
          rfl
      | false =>
          rw [hrun, he, if_neg Bool.false_ne_true, merge_declared he ho]
          cases e.content.unite? other.content with
          | none => rfl
          | some content => exact run_uniteInPlace e other content

/-! ## Merging -/

theorem merge_eq_error_iff (e other : Entity) (error : ModelError) :
    e.merge other = .error error ↔
      e.Clashes other ∧ error = .kindConflict other.name e.kind other.kind := by
  by_cases hclash : e.Clashes other
  · obtain ⟨he, ho, hk⟩ := hclash
    have hnone : e.content.unite? other.content = none := by
      by_contra hsome
      obtain ⟨content, hc⟩ := Option.ne_none_iff_exists'.mp hsome
      exact hk (Content.kind_of_unite? hc).1.symm
    rw [merge_declared he ho, hnone, Except.error.injEq, eq_comm]
    exact (and_iff_right ⟨he, ho, hk⟩).symm
  · obtain ⟨merged, hm⟩ := (not_clashes_iff e other).mp hclash
    rw [hm]
    exact iff_of_false nofun fun h => hclash h.1

/-- Merging fails for two declarations of different kinds and for nothing else; it then reports
both kinds, and leaves the first entity as it was if it is done in place. Two declarations of one
kind are united, list by list and field by field: what the first one has comes first, and what
the second one adds comes behind it or fills what was empty. -/
theorem merge_prefers_first (e other : Entity) :
    ((∃ error, e.merge other = .error error) ↔ e.Clashes other) ∧
      (∀ error, e.merge other = .error error →
        error = .kindConflict other.name e.kind other.kind ∧
          (mergeInPlace other).run e = .error error e) ∧
      (∀ merged, e.merge other = .ok merged → (mergeInPlace other).run e = .ok () merged) ∧
      (e.isPlaceholder = false → other.isPlaceholder = false → e.kind = other.kind →
        ∃ merged, e.merge other = .ok merged ∧ e.IsUnion other merged) := by
  refine ⟨?_, ?_, ?_, ?_⟩
  · rw [Except.exists_error_iff, ← not_clashes_iff, not_not]
  · intro error h
    exact ⟨((merge_eq_error_iff e other error).mp h).2, by rw [run_mergeInPlace, h]⟩
  · intro merged h
    rw [run_mergeInPlace, h]
  · intro he ho hk
    obtain ⟨content, hc⟩ := Content.exists_unite? ((declared_iff e).mp he) hk
    have hm : e.merge other = .ok (e.unite other content) :=
      (merge_declared_eq_ok_iff he ho).mpr ⟨content, hc, rfl⟩
    exact ⟨e.unite other content, hm, isUnion_of_merge he ho hm⟩

/-- The first incoming `put` is there already, since neither visibility nor result count, and the
second `drop` repeats the one before it, since the name of an argument does not count either. The
second `put` is another overload. -/
example :
    (Entity.merge
        { name := "Store"
          content := .classContent { methods := [.method "put" .publicAccess [] .void] } }
        { name := "Store", package := ["shop"]
          content := .classContent
            { isAbstract := true
              methods :=
                [.method "drop" .publicAccess [⟨"key", .named "Key"⟩] .void,
                  .method "put" .privateAccess [] (.named "Key"),
                  .method "put" .publicAccess [⟨"key", .named "Key"⟩] .void,
                  .method "drop" .publicAccess [⟨"last", .named "Key"⟩] .void] } }) =
      .ok
        { name := "Store", package := ["shop"]
          content := .classContent
            { isAbstract := true
              methods :=
                [.method "put" .publicAccess [] .void,
                  .method "drop" .publicAccess [⟨"key", .named "Key"⟩] .void,
                  .method "put" .publicAccess [⟨"key", .named "Key"⟩] .void] } } := by
  decide +kernel

end Entity

end ClassDiagram
