import ClassDiagram.Entity

/-!
# Uniting two definitions

Uniting two lists appends what is new under a key, one element after the
other. The order in which three lists are united does not matter, although
repetitions inside a list are dropped at different moments: what is dropped
early is dropped late as well, since its key is there by then. The same holds
for the bodies, the contents and the declarations that are made of such lists.
-/

namespace ClassDiagram

section UniteBy

variable {α : Type} (key : α → String)

/-- Append an element unless its key is there already. -/
def addBy (present : List α) (new : α) : List α :=
  if present.any (key · = key new) then present else present ++ [new]

/-- Append the elements whose keys are not there yet, one after the other. -/
def uniteBy (present incoming : List α) : List α :=
  incoming.foldl (addBy key) present

theorem addBy_of_mem {present : List α} {new : α} (h : key new ∈ present.map key) :
    addBy key present new = present := by
  rw [addBy, if_pos]
  simpa using h

theorem addBy_of_not_mem {present : List α} {new : α} (h : key new ∉ present.map key) :
    addBy key present new = present ++ [new] := by
  rw [addBy, if_neg]
  simpa using h

theorem mem_map_addBy (present : List α) (new : α) (k : String) :
    k ∈ (addBy key present new).map key ↔ k ∈ present.map key ∨ k = key new := by
  by_cases h : key new ∈ present.map key
  · rw [addBy_of_mem key h, or_iff_left_of_imp]
    rintro rfl
    exact h
  · rw [addBy_of_not_mem key h, List.map_append, List.mem_append, List.map_singleton,
      List.mem_singleton]

/-- The keys of a union are the keys of both lists. -/
theorem mem_map_uniteBy (present incoming : List α) (k : String) :
    k ∈ (uniteBy key present incoming).map key ↔
      k ∈ present.map key ∨ k ∈ incoming.map key := by
  induction incoming generalizing present with
  | nil => simp [uniteBy]
  | cons new rest ih =>
      change k ∈ (uniteBy key (addBy key present new) rest).map key ↔ _
      rw [ih, mem_map_addBy, List.map_cons, List.mem_cons, or_assoc]

theorem uniteBy_addBy (first present : List α) (new : α) :
    uniteBy key first (addBy key present new) = addBy key (uniteBy key first present) new := by
  by_cases h : key new ∈ present.map key
  · have hu : key new ∈ (uniteBy key first present).map key :=
      (mem_map_uniteBy key first present _).mpr (Or.inr h)
    rw [addBy_of_mem key h, addBy_of_mem key hu]
  · rw [addBy_of_not_mem key h]
    simp [uniteBy]

/-- Three lists are united to the same list from the left and from the right. -/
theorem uniteBy_assoc (first second third : List α) :
    uniteBy key (uniteBy key first second) third =
      uniteBy key first (uniteBy key second third) := by
  induction third generalizing second with
  | nil => rfl
  | cons new rest ih =>
      change uniteBy key (addBy key (uniteBy key first second) new) rest =
        uniteBy key first (uniteBy key (addBy key second new) rest)
      rw [← ih, uniteBy_addBy]

end UniteBy

theorem uniteMembers_eq_uniteBy (present incoming : List Member) :
    uniteMembers present incoming = uniteBy Member.signature present incoming := rfl

theorem uniteTexts_eq_uniteBy (present incoming : List String) :
    uniteTexts present incoming = uniteBy id present incoming := by
  have hstep : (fun (ts : List String) t => if t ∈ ts then ts else ts ++ [t]) = addBy id := by
    funext ts t
    simp [addBy]
  rw [uniteTexts, hstep, uniteBy]

theorem uniteMembers_assoc (first second third : List Member) :
    uniteMembers (uniteMembers first second) third =
      uniteMembers first (uniteMembers second third) := by
  simp only [uniteMembers_eq_uniteBy, uniteBy_assoc]

theorem uniteTexts_assoc (first second third : List String) :
    uniteTexts (uniteTexts first second) third =
      uniteTexts first (uniteTexts second third) := by
  simp only [uniteTexts_eq_uniteBy, uniteBy_assoc]

theorem Body.unite_assoc (first second third : Body) :
    (first.unite second).unite third = first.unite (second.unite third) := by
  simp only [Body.unite, uniteMembers_assoc, Bool.or_assoc]

/-- Contents are united in either order, or in neither if one of them is of another kind. -/
theorem Content.unite?_assoc (first second third : Content) :
    (first.unite? second).bind (·.unite? third) =
      (second.unite? third).bind (first.unite? ·) := by
  cases first <;> cases second <;> cases third
  case classContent.classContent.classContent =>
    simp only [Content.unite?, Option.bind_some, Body.unite_assoc]
  case enumContent.enumContent.enumContent =>
    simp only [Content.unite?, Option.bind_some, Body.unite_assoc, uniteMembers_assoc]
  case interfaceContent.interfaceContent.interfaceContent =>
    simp only [Content.unite?, Option.bind_some, uniteMembers_assoc]
  all_goals rfl

theorem Content.kind_of_unite? {content other united : Content}
    (h : content.unite? other = some united) :
    other.kind = content.kind ∧ united.kind = content.kind := by
  cases content <;> cases other <;> simp only [Content.unite?, Option.some.injEq, reduceCtorEq] at h
  all_goals
    subst h
    exact ⟨rfl, rfl⟩

theorem Content.exists_unite? {content other : Content} (hp : content.kind ≠ .unresolved)
    (hk : content.kind = other.kind) : ∃ united, content.unite? other = some united := by
  cases content <;> cases other <;> simp_all [Content.unite?, Content.kind]

namespace Entity

theorem isPlaceholder_iff (e : Entity) : e.isPlaceholder = true ↔ e.kind = .unresolved := by
  simp [isPlaceholder]

theorem declared_iff (e : Entity) : e.isPlaceholder = false ↔ e.kind ≠ .unresolved := by
  simp [isPlaceholder]

/-- Take the second value where the first one is empty. -/
private theorem fallback_assoc {α : Type} (empty : α → Bool) (x y z : α) :
    (if empty (if empty x then y else x) then z else if empty x then y else x) =
      if empty x then (if empty y then z else y) else x := by
  cases hx : empty x <;> simp [hx]

/-- Two declarations with their contents united: the first keeps what it has. -/
def unite (e other : Entity) (content : Content) : Entity where
  name := e.name
  content := content
  package := if e.package.isEmpty then other.package else e.package
  doc := if e.doc.isEmpty then other.doc else e.doc
  stereotypes := uniteTexts e.stereotypes other.stereotypes
  generics := if e.generics.isEmpty then other.generics else e.generics
  important := e.important || other.important

theorem unite_assoc (x y z : Entity) (c c' c'' : Content) :
    (x.unite y c).unite z c'' = x.unite (y.unite z c') c'' := by
  simp only [unite, uniteTexts_assoc, Bool.or_assoc, mk.injEq, true_and, and_true]
  exact ⟨fallback_assoc List.isEmpty _ _ _, fallback_assoc Comment.isEmpty _ _ _,
    fallback_assoc List.isEmpty _ _ _⟩

theorem merge_placeholder_right {e other : Entity} (h : other.isPlaceholder = true) :
    e.merge other =
      .ok { e with package := if e.package.isEmpty then other.package else e.package } := by
  simp only [merge, h, if_true]

theorem merge_placeholder_left {e other : Entity} (he : e.isPlaceholder = true)
    (ho : other.isPlaceholder = false) :
    e.merge other =
      .ok { other with stereotypes := uniteTexts other.stereotypes e.stereotypes } := by
  simp only [merge, he, ho, if_true, Bool.false_eq_true, if_false]

theorem merge_declared {e other : Entity} (he : e.isPlaceholder = false)
    (ho : other.isPlaceholder = false) :
    e.merge other =
      match e.content.unite? other.content with
      | some content => .ok (e.unite other content)
      | none => .error (.kindConflict other.name e.kind other.kind) := by
  simp only [merge, he, ho, Bool.false_eq_true, if_false]
  rfl

theorem merge_declared_eq_ok_iff {e other merged : Entity} (he : e.isPlaceholder = false)
    (ho : other.isPlaceholder = false) :
    e.merge other = .ok merged ↔
      ∃ content, e.content.unite? other.content = some content ∧
        merged = e.unite other content := by
  rw [merge_declared he ho]
  cases h : e.content.unite? other.content with
  | none => simp
  | some content => simp [eq_comm]

/-- Merging fails for two declarations of different kinds and for nothing else. -/
theorem exists_merge_iff (e other : Entity) :
    (∃ merged, e.merge other = .ok merged) ↔
      e.isPlaceholder = true ∨ other.isPlaceholder = true ∨ e.kind = other.kind := by
  cases ho : other.isPlaceholder with
  | true => simp [merge_placeholder_right ho]
  | false =>
      cases he : e.isPlaceholder with
      | true => simp [merge_placeholder_left he ho]
      | false =>
          simp only [merge_declared_eq_ok_iff he ho, Bool.false_eq_true, false_or]
          constructor
          · rintro ⟨_, content, hc, _⟩
            exact (Content.kind_of_unite? hc).1.symm
          · intro hk
            obtain ⟨content, hc⟩ := Content.exists_unite? ((declared_iff e).mp he) hk
            exact ⟨e.unite other content, content, hc, rfl⟩

/-- A placeholder takes over the kind of the other definition, a declaration keeps its own. -/
theorem kind_of_merge {e other merged : Entity} (h : e.merge other = .ok merged) :
    merged.kind = if e.isPlaceholder then other.kind else e.kind := by
  cases ho : other.isPlaceholder with
  | true =>
      have hk : merged.kind = e.kind := by
        rw [merge_placeholder_right ho] at h
        cases h
        rfl
      rw [hk]
      cases he : e.isPlaceholder with
      | true => exact ((isPlaceholder_iff e).mp he).trans ((isPlaceholder_iff other).mp ho).symm
      | false => rfl
  | false =>
      cases he : e.isPlaceholder with
      | true =>
          rw [merge_placeholder_left he ho] at h
          cases h
          rfl
      | false =>
          obtain ⟨content, hc, rfl⟩ := (merge_declared_eq_ok_iff he ho).mp h
          exact (Content.kind_of_unite? hc).2

/-- A merged definition has the name of one of the two. -/
theorem name_of_merge {e other merged : Entity} (h : e.merge other = .ok merged)
    (hn : e.name = other.name) : merged.name = e.name := by
  cases ho : other.isPlaceholder with
  | true =>
      rw [merge_placeholder_right ho] at h
      cases h
      rfl
  | false =>
      cases he : e.isPlaceholder with
      | true =>
          rw [merge_placeholder_left he ho] at h
          cases h
          exact hn.symm
      | false =>
          obtain ⟨content, _, rfl⟩ := (merge_declared_eq_ok_iff he ho).mp h
          rfl

theorem isPlaceholder_of_merge {e other merged : Entity} (h : e.merge other = .ok merged) :
    merged.isPlaceholder = (e.isPlaceholder && other.isPlaceholder) := by
  have hk := kind_of_merge h
  cases he : e.isPlaceholder with
  | true => rw [he, if_pos rfl] at hk; simp [isPlaceholder, hk]
  | false =>
      rw [he, if_neg Bool.false_ne_true] at hk
      rw [Bool.false_and, declared_iff, hk]
      exact (declared_iff e).mp he

/-- Three declarations are merged to the same one from the left and from the right. -/
theorem merge_assoc {x y z xy yz left right : Entity} (hx : x.isPlaceholder = false)
    (hy : y.isPlaceholder = false) (hz : z.isPlaceholder = false)
    (hxy : x.merge y = .ok xy) (hl : xy.merge z = .ok left)
    (hyz : y.merge z = .ok yz) (hr : x.merge yz = .ok right) : left = right := by
  have hxy' : xy.isPlaceholder = false := by simp [isPlaceholder_of_merge hxy, hx]
  have hyz' : yz.isPlaceholder = false := by simp [isPlaceholder_of_merge hyz, hy]
  obtain ⟨c, hc, rfl⟩ := (merge_declared_eq_ok_iff hx hy).mp hxy
  obtain ⟨c', hc', rfl⟩ := (merge_declared_eq_ok_iff hy hz).mp hyz
  obtain ⟨l, hlc, rfl⟩ := (merge_declared_eq_ok_iff hxy' hz).mp hl
  obtain ⟨r, hrc, rfl⟩ := (merge_declared_eq_ok_iff hx hyz').mp hr
  have hcontent := Content.unite?_assoc x.content y.content z.content
  rw [hc, hc', Option.bind_some, Option.bind_some] at hcontent
  have hlr : l = r := Option.some.inj (hlc.symm.trans (hcontent.trans hrc))
  rw [hlr, unite_assoc x y z c c' r]

end Entity

end ClassDiagram
