import ClassDiagram.Proofs.FirstOccurrence
import ClassDiagram.Proofs.Operations

/-!
# Registering entities in any order

Placeholders and declarations of the same names come in any order. The first
call with a name fixes its place in the table, and the first declaration of a
name is the only one that is accepted. A placeholder that comes before it can
add stereotypes, one that comes after it a package, and neither changes
anything else of the declaration.
-/

namespace ClassDiagram

namespace Entity

/-- Two entities that differ at most in package and stereotypes, to which placeholders add. -/
def SameDeclaration (e other : Entity) : Prop :=
  e = { other with package := e.package, stereotypes := e.stereotypes }

theorem SameDeclaration.trans {e e' e'' : Entity} (h : e.SameDeclaration e')
    (h' : e'.SameDeclaration e'') : e.SameDeclaration e'' := by
  unfold SameDeclaration at *
  rw [h', mk.injEq] at h
  rw [mk.injEq]
  exact h

/-- A placeholder that is absorbed by an entity changes nothing but the package. -/
theorem sameDeclaration_of_merge_placeholder {e other merged : Entity}
    (h : e.merge other = .ok merged) (ho : other.isPlaceholder = true) :
    merged.SameDeclaration e := by
  rw [merge_placeholder_right ho] at h
  rw [← Except.ok.inj h]
  rfl

/-- A placeholder that is completed by a declaration adds nothing but stereotypes. -/
theorem sameDeclaration_of_merge_declaration {e other merged : Entity}
    (h : e.merge other = .ok merged) (he : e.isPlaceholder = true)
    (ho : other.isPlaceholder = false) : merged.SameDeclaration other := by
  rw [merge_placeholder_left he ho] at h
  rw [← Except.ok.inj h]
  rfl

end Entity

namespace Diagram

/-! ## One call -/

section Call

variable {d d' : Diagram} {e : Entity} {ref : Ref}

theorem isSome_lookupDeclared_iff (d : Diagram) (name : String) :
    (d.lookupDeclared name).isSome = true ↔
      ∃ e, d.objects.get? name = some e ∧ e.isPlaceholder = false := by
  rw [lookupDeclared, Option.isSome_map, Option.isSome_iff_exists]
  simp only [Table.declared?_eq_some_iff, exists_and_left, exists_eq', and_true]

/-- A registration declares its own name if it is that of a declaration, and no other name. -/
theorem isSome_lookupDeclared_register {name : String} (h : d.register e = .ok (d', ref)) :
    (d'.lookupDeclared name).isSome = true ↔
      (d.lookupDeclared name).isSome = true ∨ e.name = name ∧ e.isPlaceholder = false := by
  obtain ⟨value, hj, rfl⟩ := register_eq_ok h
  simp only [isSome_lookupDeclared_iff, Table.get?_insert]
  by_cases hn : name = e.name
  · subst hn
    rw [if_pos rfl]
    generalize d.objects.get? e.name = present at hj
    cases hj with
    | incoming => simp
    | @both present _ _ hm =>
        have hp := Entity.isPlaceholder_of_merge hm
        cases hheld : present.isPlaceholder <;> simp [hp, hheld]
  · have hne : ¬ e.name = name := fun he => hn he.symm
    simp [hn, hne]

/-- A placeholder and the first declaration of a name can be registered. -/
theorem exists_register (h : e.isPlaceholder = true ∨ d.lookupDeclared e.name = none) :
    ∃ d' ref, d.register e = .ok (d', ref) := by
  cases hp : d.objects.get? e.name with
  | none => exact ⟨_, _, by rw [register, hp]⟩
  | some present =>
      have hone : e.isPlaceholder = true ∨ present.isPlaceholder = true := by
        apply h.imp id
        intro hn
        exact (Table.declared?_eq_none_iff _ _).mp (Option.map_eq_none_iff.mp hn) present hp
      have hcheck : (!present.isPlaceholder && !e.isPlaceholder) = false := by
        rcases hone with ht | ht <;> simp [ht]
      obtain ⟨merged, hm⟩ := (Entity.exists_merge_iff present e).mpr
        (hone.elim (fun ht => Or.inr (Or.inl ht)) Or.inl)
      exact ⟨_, _, by rw [register, hp]; simp only [hcheck, hm]; rfl⟩

/-- Only the second declaration of a name is refused, and it is reported as such. -/
theorem register_eq_error_iff (d : Diagram) (e : Entity) (error : ModelError) :
    d.register e = .error error ↔
      e.isPlaceholder = false ∧ (d.lookupDeclared e.name).isSome = true ∧
        error = .duplicateObject e.name := by
  by_cases h : e.isPlaceholder = true ∨ d.lookupDeclared e.name = none
  · obtain ⟨d', ref, hok⟩ := exists_register h
    rw [hok]
    rcases h with ht | ht <;> simp [ht]
  · obtain ⟨he, hl⟩ := not_or.mp h
    rw [Bool.not_eq_true] at he
    have hs : (d.lookupDeclared e.name).isSome = true := Option.isSome_iff_ne_none.mpr hl
    obtain ⟨present, hp, hd⟩ := (isSome_lookupDeclared_iff d e.name).mp hs
    simp [register, hp, hd, he, hs, eq_comm]

theorem placeholder_or_undeclared_of_register (h : d.register e = .ok (d', ref)) :
    e.isPlaceholder = true ∨ d.lookupDeclared e.name = none := by
  by_contra hn
  obtain ⟨he, hl⟩ := not_or.mp hn
  have herror := (register_eq_error_iff d e (.duplicateObject e.name)).mpr
    ⟨Bool.not_eq_true _ ▸ he, Option.isSome_iff_ne_none.mpr hl, rfl⟩
  rw [h] at herror
  cases herror

theorem ref_of_register (h : d.register e = .ok (d', ref)) :
    ref = .registered (d.objects.position e.name) := by
  cases hp : d.objects.get? e.name with
  | none =>
      rw [register, hp] at h
      exact (Prod.mk.inj (Except.ok.inj h)).2.symm
  | some present =>
      simp only [register, hp] at h
      split at h
      · cases h
      · obtain ⟨merged, _, hr⟩ := Except.bind_eq_ok_iff.mp h
        exact (Prod.mk.inj (Except.ok.inj hr)).2.symm

end Call

/-! ## Any sequence of calls -/

/-- Register entities one after the other, from the empty diagram on. A call that fails leaves
the diagram as it is. -/
def registerAll (es : List Entity) : Diagram :=
  es.foldl (fun d e => (Operation.register e).apply d) {}

theorem registerAll_append_singleton (es : List Entity) (e : Entity) :
    registerAll (es ++ [e]) = (Operation.register e).apply (registerAll es) := by
  rw [registerAll, List.foldl_append]
  rfl

/-- The first declaration of a name among entities. -/
def firstDeclaration? (es : List Entity) (name : String) : Option Entity :=
  es.find? fun e => e.name = name && !e.isPlaceholder

theorem firstDeclaration?_append_singleton (es : List Entity) (e : Entity) (name : String) :
    firstDeclaration? (es ++ [e]) name =
      (firstDeclaration? es name).or
        (if e.name = name ∧ e.isPlaceholder = false then some e else none) := by
  rw [firstDeclaration?, List.find?_append, firstDeclaration?, List.find?_singleton]
  congr 1
  simp

/-- What is known of a diagram in which the entities were registered in this order. -/
structure Registers (es : List Entity) (d : Diagram) : Prop where
  keys : d.objects.keys = (es.map (·.name)).eraseDups
  declared : ∀ name, (d.lookupDeclared name).isSome = (firstDeclaration? es name).isSome
  held : ∀ name, ∀ first ∈ firstDeclaration? es name,
    ∃ held, d.objects.get? name = some held ∧ held.SameDeclaration first

/-- A call that is refused changes neither the diagram nor what is known of it. -/
theorem Registers.refuse {es : List Entity} {d : Diagram} (h : Registers es d) {e : Entity}
    (hd : (d.lookupDeclared e.name).isSome = true) : Registers (es ++ [e]) d := by
  have hfirst (name : String) :
      firstDeclaration? (es ++ [e]) name = firstDeclaration? es name := by
    rw [firstDeclaration?_append_singleton]
    split
    · next hn =>
        rw [h.declared, hn.1] at hd
        exact Option.or_of_isSome hd
    · exact Option.or_none
  refine ⟨?_, fun name => by rw [hfirst, h.declared], fun name => by rw [hfirst]; exact h.held name⟩
  obtain ⟨held, hg, _⟩ := (isSome_lookupDeclared_iff d e.name).mp hd
  have hmem : e.name ∈ es.map (·.name) := by
    rw [← List.mem_eraseDups, ← h.keys]
    exact Table.mem_keys_of_get? hg
  rw [List.map_append, List.map_singleton, eraseDups_append_singleton, if_pos hmem, h.keys]

/-- Under its own name, an accepted entity is the first declaration or leaves it as it was. -/
theorem Registers.sameDeclaration {es : List Entity} {d : Diagram} (h : Registers es d)
    {e value first : Entity} (ha : e.isPlaceholder = true ∨ d.lookupDeclared e.name = none)
    (hj : Joined (d.objects.get? e.name) (some e) (some value))
    (hf : first ∈ firstDeclaration? (es ++ [e]) e.name) : value.SameDeclaration first := by
  rw [firstDeclaration?_append_singleton] at hf
  have hdeclared := h.declared e.name
  cases hold : firstDeclaration? es e.name with
  | some former =>
      obtain ⟨held, hg, hsame⟩ := h.held e.name former hold
      have he : e.isPlaceholder = true := by
        apply ha.resolve_right
        rw [hold, Option.isSome_some] at hdeclared
        exact Option.isSome_iff_ne_none.mp hdeclared
      rw [hold, Option.some_or] at hf
      rw [hg] at hj
      cases hj with
      | both hm =>
          rw [← Option.some.inj hf]
          exact (Entity.sameDeclaration_of_merge_placeholder hm he).trans hsame
  | none =>
      rw [hold, Option.none_or] at hf
      have he : e.isPlaceholder = false := by
        by_contra hn
        rw [if_neg fun hd => hn hd.2] at hf
        cases hf
      rw [if_pos ⟨rfl, he⟩] at hf
      rw [← Option.some.inj hf]
      generalize hg : d.objects.get? e.name = present at hj
      cases hj with
      | incoming => rfl
      | @both held _ _ hm =>
          have hp : held.isPlaceholder = true := by
            by_contra hn
            have hs := (isSome_lookupDeclared_iff d e.name).mpr ⟨held, hg, by simpa using hn⟩
            rw [hdeclared, hold] at hs
            cases hs
          exact Entity.sameDeclaration_of_merge_declaration hm hp he

/-- A call that is accepted. -/
theorem Registers.accept {es : List Entity} {d d' : Diagram} (h : Registers es d) {e : Entity}
    {ref : Ref} (hr : d.register e = .ok (d', ref)) : Registers (es ++ [e]) d' where
  keys := by
    obtain ⟨value, _, rfl⟩ := register_eq_ok hr
    simp only [Table.keys_insert, h.keys, List.mem_eraseDups, List.map_append, List.map_singleton,
      eraseDups_append_singleton]
  declared := by
    intro name
    rw [Bool.eq_iff_iff, isSome_lookupDeclared_register hr, h.declared,
      firstDeclaration?_append_singleton, Option.isSome_or, Bool.or_eq_true]
    apply or_congr_right
    split
    · next hd => exact iff_of_true hd rfl
    · next hd => exact iff_of_false hd Bool.false_ne_true
  held := by
    intro name first hf
    have ha := placeholder_or_undeclared_of_register hr
    obtain ⟨value, hj, rfl⟩ := register_eq_ok hr
    rw [Table.get?_insert]
    by_cases hn : name = e.name
    · subst hn
      exact ⟨value, if_pos rfl, h.sameDeclaration ha hj hf⟩
    · rw [firstDeclaration?_append_singleton, if_neg fun hd => hn hd.1.symm, Option.or_none] at hf
      rw [if_neg hn]
      exact h.held name first hf

/-- After any calls the table holds what the calls tell. -/
theorem registers_registerAll (es : List Entity) : Registers es (registerAll es) := by
  induction es using List.reverseRecOn with
  | nil => exact ⟨rfl, fun _ => rfl, fun _ _ hf => nomatch hf⟩
  | append_singleton es e ih =>
      rw [registerAll_append_singleton, Operation.apply]
      cases hr : (registerAll es).register e with
      | error error =>
          exact ih.refuse ((register_eq_error_iff _ _ _).mp hr).2.1
      | ok result => exact ih.accept hr

/-! ## What the calls tell -/

theorem isSome_firstDeclaration?_iff (es : List Entity) (name : String) :
    (firstDeclaration? es name).isSome = true ↔
      ∃ e ∈ es, e.name = name ∧ e.isPlaceholder = false := by
  simp [firstDeclaration?]

theorem firstDeclaration?_eq_some_iff (es : List Entity) (name : String) (e : Entity) :
    firstDeclaration? es name = some e ↔
      (e.name = name ∧ e.isPlaceholder = false) ∧ ∃ before after, es = before ++ e :: after ∧
        ∀ earlier ∈ before, earlier.name = name → earlier.isPlaceholder = true := by
  rw [firstDeclaration?, List.find?_eq_some_iff_append]
  simp [imp_iff_not_or]

/-- Some call brought a declaration of the name and was accepted. -/
def AcceptedIn (es : List Entity) (name : String) : Prop :=
  ∃ before e after, es = before ++ e :: after ∧ e.name = name ∧ e.isPlaceholder = false ∧
    ∃ d ref, (registerAll before).register e = .ok (d, ref)

/-- The first declaration of a name is accepted. -/
theorem acceptedIn_iff (es : List Entity) (name : String) :
    AcceptedIn es name ↔ (firstDeclaration? es name).isSome = true := by
  constructor
  · rintro ⟨before, e, after, rfl, hn, he, _⟩
    exact (isSome_firstDeclaration?_iff _ name).mpr ⟨e, by simp, hn, he⟩
  · intro h
    obtain ⟨e, hfirst⟩ := Option.isSome_iff_exists.mp h
    obtain ⟨⟨rfl, he⟩, before, after, rfl, hbefore⟩ :=
      (firstDeclaration?_eq_some_iff es name e).mp hfirst
    refine ⟨before, e, after, rfl, rfl, he, exists_register (Or.inr ?_)⟩
    rw [← Option.not_isSome_iff_eq_none, (registers_registerAll before).declared,
      isSome_firstDeclaration?_iff]
    rintro ⟨earlier, hmem, hn, hd⟩
    rw [hbefore earlier hmem hn] at hd
    cases hd

/-- A call fails if it brings a declaration of a name that was accepted before. -/
theorem exists_register_error_iff (before : List Entity) (e : Entity) :
    (∃ error, (registerAll before).register e = .error error) ↔
      e.isPlaceholder = false ∧ AcceptedIn before e.name := by
  simp only [register_eq_error_iff, acceptedIn_iff, (registers_registerAll before).declared,
    exists_and_left, exists_eq, and_true]

theorem registerAll_of_error {before : List Entity} {e : Entity} {error : ModelError}
    (h : (registerAll before).register e = .error error) :
    error = .duplicateObject e.name ∧ registerAll (before ++ [e]) = registerAll before := by
  refine ⟨((register_eq_error_iff _ _ _).mp h).2.2, ?_⟩
  rw [registerAll_append_singleton, Operation.apply, h]
  rfl

/-- The place of a name is the number of different names before the first call that brings it. -/
theorem registerAll_of_ok {before : List Entity} {e : Entity} {d : Diagram} {ref : Ref}
    (h : (registerAll before).register e = .ok (d, ref)) :
    registerAll (before ++ [e]) = d ∧
      ref = .registered ((before.map (·.name)).takeWhile (· ≠ e.name)).toFinset.card := by
  constructor
  · rw [registerAll_append_singleton, Operation.apply, h]
    rfl
  · rw [ref_of_register h, Table.position, (registers_registerAll before).keys, idxOf_eraseDups]

theorem listsFirst_keys_registerAll (es : List Entity) :
    ListsFirst (fun e : Entity => some e.name) es (registerAll es).objects.keys := by
  rw [(registers_registerAll es).keys, ← List.filterMap_eq_map]
  exact listsFirst_eraseDups _ es

/-- In any sequence of registrations, a call fails exactly if it brings a declaration and one of
the same name was accepted before; it then reports the name and changes nothing. Any other call
returns the place that the name got when it came first. The table lists the names in the order in
which they came first, a name is declared exactly if some call declared it, and its declaration
is the first one but for the package and the stereotypes. -/
theorem registerAll_sequence (es : List Entity) :
    (∀ before e after, es = before ++ e :: after →
      ((∃ error, (registerAll before).register e = .error error) ↔
        e.isPlaceholder = false ∧ AcceptedIn before e.name) ∧
      (∀ error, (registerAll before).register e = .error error →
        error = .duplicateObject e.name ∧ registerAll (before ++ [e]) = registerAll before) ∧
      ∀ d ref, (registerAll before).register e = .ok (d, ref) →
        registerAll (before ++ [e]) = d ∧
        ref = .registered ((before.map (·.name)).takeWhile (· ≠ e.name)).toFinset.card) ∧
    ListsFirst (fun e : Entity => some e.name) es (registerAll es).objects.keys ∧
    (∀ name, ((registerAll es).lookupDeclared name).isSome = true ↔
      ∃ e ∈ es, e.name = name ∧ e.isPlaceholder = false) ∧
    ∀ before e after, es = before ++ e :: after → e.isPlaceholder = false →
      (∀ earlier ∈ before, earlier.name = e.name → earlier.isPlaceholder = true) →
        ∃ held, (registerAll es).objects.get? e.name = some held ∧ held.SameDeclaration e := by
  refine ⟨fun before e _ _ => ⟨exists_register_error_iff before e,
    fun error => registerAll_of_error, fun d ref => registerAll_of_ok⟩,
    listsFirst_keys_registerAll es, ?_, ?_⟩
  · intro name
    rw [(registers_registerAll es).declared, isSome_firstDeclaration?_iff]
  · intro before e after he hd hbefore
    apply (registers_registerAll es).held e.name e
    exact (firstDeclaration?_eq_some_iff es e.name e).mpr ⟨⟨rfl, hd⟩, before, after, he, hbefore⟩

/-- The item keeps its place and its kind, and has a stereotype and a package from placeholders;
the second class is refused. -/
example :
    (registerAll [{ Entity.placeholder "Item" with stereotypes := ["entity"] },
        .ofKind .classKind "Order" [], .ofKind .enumKind "Item" [],
        .ofKind .unresolved "Item" ["shop"], .ofKind .interfaceKind "Order" []]).objects.entries =
      [("Item", { Entity.ofKind .enumKind "Item" ["shop"] with stereotypes := ["entity"] }),
        ("Order", .ofKind .classKind "Order" [])] := by
  decide

end Diagram

end ClassDiagram
