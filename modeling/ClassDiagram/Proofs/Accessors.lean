import ClassDiagram.Diagram.Accessors
import ClassDiagram.Diagram.Importance
import ClassDiagram.Proofs.Table

/-!
# Accessors and flags of an entity

Adding accessors cannot fail, since only classes and enumerations have
attributes and these accept methods. It is therefore a function of the entity,
and a second application finds every name taken. Flags do not touch what
accessors are made from, so the two can be applied again in any order.
-/

namespace ClassDiagram

namespace Content

/-- Methods at the end of the list of methods, if there is such a list. -/
def appendMethods (more : List Member) : Content → Content
  | classContent body => classContent { body with methods := body.methods ++ more }
  | enumContent body constants =>
    enumContent { body with methods := body.methods ++ more } constants
  | interfaceContent methods => interfaceContent (methods ++ more)
  | placeholder => placeholder

theorem appendMethods_nil (c : Content) : c.appendMethods [] = c := by
  cases c <;> simp [appendMethods]

theorem appendMethods_append (c : Content) (more later : List Member) :
    (c.appendMethods more).appendMethods later = c.appendMethods (more ++ later) := by
  cases c <;> simp [appendMethods]

theorem kind_appendMethods (c : Content) (more : List Member) :
    (c.appendMethods more).kind = c.kind := by
  cases c <;> rfl

theorem add?_method {c : Content} {m : Member} (hm : m.sort = .method) (hc : c ≠ .placeholder) :
    c.add? m = some (c.appendMethods [m]) := by
  cases c with
  | classContent body => simp [add?, Body.add?, hm, appendMethods]
  | enumContent body constants => simp [add?, Body.add?, hm, appendMethods]
  | interfaceContent methods => simp [add?, hm, appendMethods]
  | placeholder => exact absurd rfl hc

theorem mapMembers_mapMembers (f g : Member → Member) (c : Content) :
    (c.mapMembers f).mapMembers g = c.mapMembers fun m => g (f m) := by
  cases c <;> simp [mapMembers, Body.mapMembers, Function.comp_def]

theorem kind_mapMembers (f : Member → Member) (c : Content) : (c.mapMembers f).kind = c.kind := by
  cases c <;> rfl

end Content

namespace Member

theorem accessor?_eq_some {m a : Member} (h : m.accessor? = some a) :
    a.name = m.accessorName ∧ a.sort = .method := by
  obtain ⟨type, _, rfl⟩ := Option.map_eq_some_iff.mp h
  exact ⟨rfl, rfl⟩

theorem accessorName_markImportant (m : Member) : m.markImportant.accessorName = m.accessorName :=
  rfl

theorem markImportant_markImportant (m : Member) :
    m.markImportant.markImportant = m.markImportant := by
  simp [markImportant]

end Member

namespace Entity

/-! ## The first member of each accessor name -/

/-- Which members come first depends on the names seen before only as far as members have them. -/
theorem firstOfName_congr {seen seen' : List String} {ms : List Member}
    (h : ∀ m ∈ ms, m.accessorName ∈ seen ↔ m.accessorName ∈ seen') :
    firstOfName seen ms = firstOfName seen' ms := by
  induction ms generalizing seen seen' with
  | nil => rfl
  | cons m rest ih =>
      have hrest : ∀ m' ∈ rest, m'.accessorName ∈ seen ↔ m'.accessorName ∈ seen' :=
        fun m' hm' => h m' (List.mem_cons_of_mem _ hm')
      have htail : firstOfName (m.accessorName :: seen) rest =
          firstOfName (m.accessorName :: seen') rest := by
        apply ih
        intro m' hm'
        rw [List.mem_cons, List.mem_cons, hrest m' hm']
      simp only [firstOfName, h m List.mem_cons_self, ih hrest, htail]

/-- A condition on names can be put before or after the choice of the first members. -/
theorem firstOfName_filter (p : String → Bool) (seen : List String) (ms : List Member) :
    firstOfName seen (ms.filter fun m => p m.accessorName) =
      (firstOfName seen ms).filter fun m => p m.accessorName := by
  induction ms generalizing seen with
  | nil => rfl
  | cons m rest ih =>
      by_cases hp : p m.accessorName = true
      · simp only [List.filter_cons, if_pos hp, firstOfName, ih]
        split
        · rfl
        · rw [List.filter_cons, if_pos hp]
      · simp only [List.filter_cons, if_neg hp, firstOfName]
        split
        · exact ih seen
        · -- the name that is seen now belongs to none of the members that are left
          rw [List.filter_cons, if_neg hp, ← ih]
          apply firstOfName_congr
          intro m' hm'
          have hne : m'.accessorName ≠ m.accessorName :=
            fun he => hp (he ▸ (List.mem_filter.mp hm').2)
          simp [hne]

theorem firstOfName_map {f : Member → Member} (hf : ∀ m, (f m).accessorName = m.accessorName)
    (seen : List String) (ms : List Member) :
    firstOfName seen (ms.map f) = (firstOfName seen ms).map f := by
  induction ms generalizing seen with
  | nil => rfl
  | cons m rest ih =>
      simp only [List.map_cons, firstOfName, hf, ih]
      split
      · rfl
      · rfl

/-! ## Adding what is missing -/

/-- The entity with the accessors that it lacks. -/
def extended (e : Entity) : Entity :=
  { e with content := e.content.appendMethods e.missingAccessors }

theorem missingAccessors_of_placeholder {e : Entity} (h : e.content = .placeholder) :
    e.missingAccessors = [] := by
  simp [missingAccessors, attributes, h, Content.body?, firstOfName]

theorem sort_of_mem_missingAccessors {e : Entity} {a : Member} (h : a ∈ e.missingAccessors) :
    a.sort = .method := by
  obtain ⟨m, _, ha⟩ := List.mem_filterMap.mp h
  exact (Member.accessor?_eq_some ha).2

theorem addMembers_methods {e : Entity} {ms : List Member} (hm : ∀ m ∈ ms, m.sort = .method)
    (hc : e.content ≠ .placeholder) :
    e.addMembers ms = .ok { e with content := e.content.appendMethods ms } := by
  induction ms generalizing e with
  | nil => rw [Content.appendMethods_nil]; rfl
  | cons m rest ih =>
      have hadd : e.addMember m = .ok { e with content := e.content.appendMethods [m] } := by
        simp only [addMember, Content.add?_method (hm m List.mem_cons_self) hc]
      have hc' : e.content.appendMethods [m] ≠ .placeholder := by
        cases hk : e.content <;> simp_all [Content.appendMethods]
      calc
        e.addMembers (m :: rest) =
            ({ e with content := e.content.appendMethods [m] } : Entity).addMembers rest := by
          rw [addMembers, hadd]
          rfl
        _ = .ok { e with content := (e.content.appendMethods [m]).appendMethods rest } :=
          ih (fun m' hm' => hm m' (List.mem_cons_of_mem _ hm')) hc'
        _ = .ok { e with content := e.content.appendMethods (m :: rest) } := by
          rw [Content.appendMethods_append, List.singleton_append]

/-- Adding accessors never fails. -/
theorem withAccessors_eq (e : Entity) : e.withAccessors = .ok e.extended := by
  by_cases hc : e.content = .placeholder
  · rw [withAccessors, extended, missingAccessors_of_placeholder hc, Content.appendMethods_nil]
    rfl
  · exact addMembers_methods (fun _ ha => sort_of_mem_missingAccessors ha) hc

theorem attributes_extended (e : Entity) : e.extended.attributes = e.attributes := by
  cases hc : e.content <;>
    simp [attributes, extended, hc, Content.appendMethods, Content.body?]

theorem constructors_extended (e : Entity) : e.extended.constructors = e.constructors := by
  cases hc : e.content <;>
    simp [constructors, extended, hc, Content.appendMethods, Content.body?]

theorem constants_extended (e : Entity) : e.extended.constants = e.constants := by
  cases hc : e.content <;> simp [constants, extended, hc, Content.appendMethods]

theorem isAbstract?_extended (e : Entity) : e.extended.isAbstract? = e.isAbstract? := by
  cases hc : e.content <;>
    simp [isAbstract?, extended, hc, Content.appendMethods, Content.body?]

theorem methods_extended (e : Entity) :
    e.extended.methods = e.methods ++ e.missingAccessors := by
  cases hc : e.content with
  | placeholder =>
      simp [methods, extended, hc, Content.appendMethods, missingAccessors_of_placeholder hc]
  | classContent body => simp [methods, extended, hc, Content.appendMethods]
  | enumContent body constants => simp [methods, extended, hc, Content.appendMethods]
  | interfaceContent ms => simp [methods, extended, hc, Content.appendMethods]

theorem extended_of_nothing_missing {e : Entity} (h : e.missingAccessors = []) :
    e.extended = e := by
  rw [extended, h, Content.appendMethods_nil]

/-- After accessors have been added none is missing. -/
theorem missingAccessors_extended (e : Entity) : e.extended.missingAccessors = [] := by
  let taken (name : String) : Bool := e.missingAccessors.any (·.name = name)
  have hlacking : (e.extended.attributes.filter fun m =>
      m.needsAccessor && !e.extended.hasMethod m.accessorName) =
      (e.attributes.filter fun m => m.needsAccessor && !e.hasMethod m.accessorName).filter
        fun m => !taken m.accessorName := by
    rw [attributes_extended, List.filter_filter]
    apply List.filter_congr
    intro m _
    simp only [hasMethod, methods_extended, List.any_append, Bool.not_or, taken]
    rw [Bool.and_comm, Bool.and_assoc, Bool.and_comm]
    ac_rfl
  rw [missingAccessors, hlacking, firstOfName_filter (fun name => !taken name),
    List.filterMap_eq_nil_iff]
  intro m hm
  obtain ⟨hfirst, hfree⟩ := List.mem_filter.mp hm
  cases ha : m.accessor? with
  | none => rfl
  | some a =>
      have hmissing : a ∈ e.missingAccessors := List.mem_filterMap.mpr ⟨m, hfirst, ha⟩
      have htaken : taken m.accessorName = true :=
        List.any_eq_true.mpr ⟨a, hmissing, by simp [(Member.accessor?_eq_some ha).1]⟩
      rw [htaken] at hfree
      cases hfree

theorem extended_extended (e : Entity) : e.extended.extended = e.extended :=
  extended_of_nothing_missing (missingAccessors_extended e)

/-! ## Flags and accessors -/

theorem attributes_mapMembers (f : Member → Member) (e : Entity) :
    (e.mapMembers f).attributes = e.attributes.map f := by
  cases hc : e.content <;>
    simp [attributes, mapMembers, hc, Content.mapMembers, Content.body?, Body.mapMembers]

theorem constructors_mapMembers (f : Member → Member) (e : Entity) :
    (e.mapMembers f).constructors = e.constructors.map f := by
  cases hc : e.content <;>
    simp [constructors, mapMembers, hc, Content.mapMembers, Content.body?, Body.mapMembers]

theorem constants_mapMembers (f : Member → Member) (e : Entity) :
    (e.mapMembers f).constants = e.constants.map f := by
  cases hc : e.content <;> simp [constants, mapMembers, hc, Content.mapMembers]

theorem isAbstract?_mapMembers (f : Member → Member) (e : Entity) :
    (e.mapMembers f).isAbstract? = e.isAbstract? := by
  cases hc : e.content <;>
    simp [isAbstract?, mapMembers, hc, Content.mapMembers, Content.body?, Body.mapMembers]

theorem methods_mapMembers (f : Member → Member) (e : Entity) :
    (e.mapMembers f).methods = e.methods.map f := by
  cases hc : e.content <;> simp [methods, mapMembers, hc, Content.mapMembers, Body.mapMembers]

/-- Flags do not change which accessors are missing. -/
theorem missingAccessors_markImportant (e : Entity) :
    e.markImportant.missingAccessors = e.missingAccessors := by
  have hattributes : e.markImportant.attributes = e.attributes.map (·.markImportant) :=
    attributes_mapMembers _ e
  have hmethods : e.markImportant.methods = e.methods.map (·.markImportant) :=
    methods_mapMembers _ e
  have hhas (name : String) : e.markImportant.hasMethod name = e.hasMethod name := by
    simp only [hasMethod, hmethods, List.any_map]
    rfl
  simp only [missingAccessors, hattributes, hhas, List.filter_map,
    firstOfName_map Member.accessorName_markImportant, List.filterMap_map]
  rfl

theorem markImportant_markImportant (e : Entity) :
    e.markImportant.markImportant = e.markImportant := by
  simp only [markImportant, mapMembers, Content.mapMembers_mapMembers,
    Member.markImportant_markImportant, Bool.or_assoc, Bool.or_self]

theorem kind_extended (e : Entity) : e.extended.kind = e.kind :=
  Content.kind_appendMethods _ _

theorem kind_markImportant (e : Entity) : e.markImportant.kind = e.kind :=
  Content.kind_mapMembers _ _

end Entity

end ClassDiagram
