import ClassDiagram.Proofs.MemberLists
import ClassDiagram.Proofs.PassOrder
import Mathlib.Data.List.Forall2

/-!
# The effect of adding accessors

Of the attributes that would share an accessor name the first one counts, and
names that a method has already count for nobody. So the names of the new
methods are new and distinct, and each attribute that needs an accessor has a
method of that name in the end: an old one, its own, or that of an earlier
attribute. All else about an entity stays.
-/

namespace ClassDiagram

namespace Table

variable {α β : Type}

/-- The same keys in the same order, with values that `R` relates. -/
def Related (R : α → β → Prop) (t : Table α) (u : Table β) : Prop :=
  List.Forall₂ (fun entry entry' => entry'.1 = entry.1 ∧ R entry.2 entry'.2) t.entries u.entries

theorem related_map {R : α → β → Prop} {f : α → β} (h : ∀ value, R value (f value))
    (t : Table α) : t.Related R (t.map f) := by
  rw [Related, map, List.forall₂_map_right_iff, List.forall₂_same]
  intro entry _
  exact ⟨rfl, h entry.2⟩

end Table

/-! ## The first member of each accessor name -/

namespace Entity

/-- The chosen members are those that come first under a name which was not seen before. -/
theorem mem_firstOfName_iff (seen : List String) (ms : List Member) (m : Member) :
    m ∈ firstOfName seen ms ↔ m.accessorName ∉ seen ∧
      ms.find? (·.accessorName = m.accessorName) = some m := by
  induction ms generalizing seen with
  | nil => simp [firstOfName]
  | cons first rest ih =>
      -- a member of that name is the one that is found, and hides the later ones
      by_cases hname : first.accessorName = m.accessorName
      · have hfind : (first :: rest).find? (·.accessorName = m.accessorName) = some first := by
          rw [List.find?_cons_of_pos (by simpa using hname)]
        rw [hfind, Option.some.injEq]
        by_cases hs : first.accessorName ∈ seen
        · rw [firstOfName, if_pos hs, ih]
          simp [← hname, hs]
        · rw [firstOfName, if_neg hs, List.mem_cons, ih]
          simp [← hname, hs, eq_comm]
      · have hfind : (first :: rest).find? (·.accessorName = m.accessorName) =
            rest.find? (·.accessorName = m.accessorName) := by
          rw [List.find?_cons_of_neg (by simpa using hname)]
        have hne : m ≠ first := fun h => hname (congrArg Member.accessorName h.symm)
        rw [hfind, firstOfName]
        split
        · exact ih seen
        · rw [List.mem_cons, or_iff_right hne, ih, List.mem_cons, not_or,
            and_iff_right (Ne.symm hname)]

theorem nodup_firstOfName (seen : List String) (ms : List Member) :
    ((firstOfName seen ms).map (·.accessorName)).Nodup := by
  induction ms generalizing seen with
  | nil => exact List.nodup_nil
  | cons first rest ih =>
      rw [firstOfName]
      split
      · exact ih seen
      · refine List.nodup_cons.mpr ⟨?_, ih _⟩
        intro hm
        obtain ⟨m, hm, hname⟩ := List.mem_map.mp hm
        refine ((mem_firstOfName_iff _ rest m).mp hm).1 ?_
        rw [hname]
        exact List.mem_cons_self

/-- A name that was not seen before is chosen if any member has it. -/
theorem exists_mem_firstOfName (seen : List String) {ms : List Member} {m : Member} (hm : m ∈ ms)
    (hs : m.accessorName ∉ seen) :
    ∃ m' ∈ firstOfName seen ms, m'.accessorName = m.accessorName := by
  cases hf : ms.find? (·.accessorName = m.accessorName) with
  | none => exact absurd (decide_eq_true rfl) (List.find?_eq_none.mp hf m hm)
  | some m' =>
      have hname : m'.accessorName = m.accessorName := by simpa using List.find?_some hf
      refine ⟨m', (mem_firstOfName_iff seen ms m').mpr ?_, hname⟩
      rw [hname]
      exact ⟨hs, hf⟩

end Entity

/-! ## Accessors -/

theorem capitalize_eq (name : String) :
    capitalize name = String.ofList
      ((name.toList.take 1).flatMap Text.uppercase ++ name.toList.drop 1) := by
  unfold capitalize
  cases name.toList with
  | nil => rfl
  | cons c rest => simp

namespace Member

/-- How an accessor is named. -/
theorem accessorName_eq (m : Member) :
    m.accessorName = (if m.type? = some (.primitive "boolean") then "is" else "get") ++
      String.ofList ((m.name.toList.take 1).flatMap Text.uppercase ++ m.name.toList.drop 1) := by
  have hboolean : m.type?.any (·.isBoolean) = true ↔ m.type? = some (.primitive "boolean") := by
    cases m.type? <;> simp [TypeExpr.isBoolean]
  simp only [accessorName, capitalize_eq, hboolean]

/-- What is generated to return a value of a type. -/
structure IsGenerated (a : Member) (type : TypeExpr) : Prop where
  kind : a.kind = .method [] type false
  visibility : a.visibility = .publicAccess
  isStatic : a.isStatic = false
  stereotypes : a.stereotypes = ["generated"]
  doc : a.doc = {}
  important : a.important = false

theorem isGenerated_of_accessor? {m a : Member} (h : m.accessor? = some a) :
    ∃ type, m.type? = some type ∧ a.IsGenerated type := by
  obtain ⟨type, ht, rfl⟩ := Option.map_eq_some_iff.mp h
  exact ⟨type, ht, ⟨rfl, rfl, rfl, rfl, rfl, rfl⟩⟩

theorem exists_accessor? {m : Member} (h : m.sort = .attr) : ∃ a, m.accessor? = some a := by
  unfold sort at h
  cases hk : m.kind with
  | attr type => exact ⟨_, by rw [accessor?, type?, hk]; rfl⟩
  | method args result isAbstract => rw [hk] at h; cases h
  | constructor args => rw [hk] at h; cases h
  | constant => rw [hk] at h; cases h

end Member

namespace Entity

/-- A method that is generated for an attribute, namely the first one of those that are private and
not static whose accessor has its name. -/
def Accesses (e : Entity) (a : Member) : Prop :=
  ∃ m type, e.attributes.find? (fun m => m.visibility = .privateAccess ∧ m.isStatic = false ∧
      m.accessorName = a.name) = some m ∧
    m.type? = some type ∧ a.IsGenerated type

theorem hasMethod_iff (e : Entity) (name : String) :
    e.hasMethod name = true ↔ ∃ m ∈ e.methods, m.name = name := by
  simp [hasMethod]

/-- Among the attributes that lack a method, the first of a free name is the first that needs an
accessor of that name. -/
theorem find?_lacking {e : Entity} {name : String} (h : e.hasMethod name = false) :
    (e.attributes.filter fun m => m.needsAccessor && !e.hasMethod m.accessorName).find?
        (·.accessorName = name) =
      e.attributes.find? fun m => m.visibility = .privateAccess ∧ m.isStatic = false ∧
        m.accessorName = name := by
  rw [List.find?_filter]
  congr 1
  funext m
  -- whether there is a method is asked for the one name only
  by_cases hname : m.accessorName = name
  · simp [hname, h, Member.needsAccessor]
  · simp [hname]

theorem accesses_of_mem_missingAccessors {e : Entity} {a : Member} (h : a ∈ e.missingAccessors) :
    e.hasMethod a.name = false ∧ e.Accesses a := by
  obtain ⟨m, hm, ha⟩ := List.mem_filterMap.mp h
  obtain ⟨_, hfind⟩ := (mem_firstOfName_iff _ _ m).mp hm
  have hname : a.name = m.accessorName := (Member.accessor?_eq_some ha).1
  have hfree : e.hasMethod a.name = false := by
    have hlacks := (List.mem_filter.mp (List.mem_of_find?_eq_some hfind)).2
    rw [hname]
    simpa using (Bool.and_eq_true_iff.mp hlacks).2
  obtain ⟨type, ht, hg⟩ := Member.isGenerated_of_accessor? ha
  refine ⟨hfree, m, type, ?_, ht, hg⟩
  rw [← find?_lacking hfree, hname, hfind]

theorem nodup_missingAccessors (e : Entity) : (e.missingAccessors.map (·.name)).Nodup := by
  have hfirst := nodup_firstOfName []
    (e.attributes.filter fun m => m.needsAccessor && !e.hasMethod m.accessorName)
  rw [List.Nodup, List.pairwise_map] at hfirst ⊢
  rw [missingAccessors, List.pairwise_filterMap]
  refine hfirst.imp ?_
  intro m m' hne a ha a' ha'
  rw [(Member.accessor?_eq_some ha).1, (Member.accessor?_eq_some ha').1]
  exact hne

/-- An attribute that needs an accessor has one in the end. -/
theorem exists_method_extended {e : Entity} (hs : e.Sorted) {m : Member} (hm : m ∈ e.attributes)
    (hneeds : m.needsAccessor = true) : ∃ a ∈ e.extended.methods, a.name = m.accessorName := by
  rw [methods_extended]
  cases hhas : e.hasMethod m.accessorName with
  | true =>
      obtain ⟨a, ha, hname⟩ := (hasMethod_iff e m.accessorName).mp hhas
      exact ⟨a, List.mem_append_left _ ha, hname⟩
  | false =>
      have hlacks : m ∈ e.attributes.filter fun m =>
          m.needsAccessor && !e.hasMethod m.accessorName :=
        List.mem_filter.mpr ⟨hm, by rw [hneeds, hhas]; rfl⟩
      obtain ⟨m', hm', hname⟩ := exists_mem_firstOfName [] hlacks nofun
      have hattr : m' ∈ e.attributes := by
        have hfind := ((mem_firstOfName_iff _ _ m').mp hm').2
        exact (List.mem_filter.mp (List.mem_of_find?_eq_some hfind)).1
      obtain ⟨a, ha⟩ := Member.exists_accessor? (hs.list .attr m' hattr)
      refine ⟨a, List.mem_append_right _ (List.mem_filterMap.mpr ⟨m', hm', ha⟩), ?_⟩
      rw [(Member.accessor?_eq_some ha).1, hname]

/-! ## What an entity gains -/

/-- All that stays of an entity whatever becomes of its members and flags. -/
structure SameHeader (e e' : Entity) : Prop where
  name : e'.name = e.name
  package : e'.package = e.package
  doc : e'.doc = e.doc
  stereotypes : e'.stereotypes = e.stereotypes
  generics : e'.generics = e.generics
  kind : e'.kind = e.kind
  isAbstract? : e'.isAbstract? = e.isAbstract?

theorem SameHeader.refl (e : Entity) : e.SameHeader e :=
  ⟨rfl, rfl, rfl, rfl, rfl, rfl, rfl⟩

theorem SameHeader.trans {e e' e'' : Entity} (h : e.SameHeader e') (h' : e'.SameHeader e'') :
    e.SameHeader e'' where
  name := h'.name.trans h.name
  package := h'.package.trans h.package
  doc := h'.doc.trans h.doc
  stereotypes := h'.stereotypes.trans h.stereotypes
  generics := h'.generics.trans h.generics
  kind := h'.kind.trans h.kind
  isAbstract? := h'.isAbstract?.trans h.isAbstract?

/-- How an entity gains accessors: the methods are the old ones and then new ones, which have new
and distinct names. If the members are in the lists of their sorts, as they are when they have been
added one by one, no attribute that needs an accessor is left without one. -/
structure Gains (e : Entity) (added : List Member) (e' : Entity) : Prop
    extends SameHeader e e' where
  important : e'.important = e.important
  attributes : e'.attributes = e.attributes
  constructors : e'.constructors = e.constructors
  constants : e'.constants = e.constants
  methods : e'.methods = e.methods ++ added
  distinct : (added.map (·.name)).Nodup
  fresh : ∀ a ∈ added, ∀ m ∈ e.methods, a.name ≠ m.name
  accesses : ∀ a ∈ added, e.Accesses a
  complete : e.Sorted → ∀ m ∈ e.attributes, m.visibility = .privateAccess → m.isStatic = false →
    ∃ a ∈ e'.methods, a.name = m.accessorName

theorem sameHeader_extended (e : Entity) : e.SameHeader e.extended :=
  ⟨rfl, rfl, rfl, rfl, rfl, kind_extended e, isAbstract?_extended e⟩

theorem gains_extended (e : Entity) : e.Gains e.missingAccessors e.extended where
  toSameHeader := sameHeader_extended e
  important := rfl
  attributes := attributes_extended e
  constructors := constructors_extended e
  constants := constants_extended e
  methods := methods_extended e
  distinct := nodup_missingAccessors e
  fresh := by
    intro a ha m hm hname
    have hhas := (hasMethod_iff e a.name).mpr ⟨m, hm, hname.symm⟩
    rw [(accesses_of_mem_missingAccessors ha).1] at hhas
    cases hhas
  accesses _ ha := (accesses_of_mem_missingAccessors ha).2
  complete := by
    intro hs m hm hv hstatic
    apply exists_method_extended hs hm
    simp [Member.needsAccessor, hv, hstatic]

end Entity

namespace Diagram

/-- The number of methods of all registered entities. -/
def methodCount (d : Diagram) : Nat :=
  (d.objects.values.flatMap (·.methods)).length

theorem methodCount_mapObjects_extended (d : Diagram) :
    (d.mapObjects Entity.extended).methodCount =
      d.methodCount + (d.objects.values.flatMap (·.missingAccessors)).length := by
  rw [methodCount, mapObjects, Table.values_map, List.flatMap_map, methodCount]
  induction d.objects.values with
  | nil => rfl
  | cons e rest ih =>
      simp only [List.flatMap_cons, List.length_append, Entity.methods_extended] at ih ⊢
      omega

theorem synthesizeAccessors_extended (d : Diagram) :
    (d.mapObjects Entity.extended).synthesizeAccessors =
      .ok (d.mapObjects Entity.extended, 0) := by
  have hnone : (d.mapObjects Entity.extended).objects.values.flatMap (·.missingAccessors) = [] := by
    simp [mapObjects, Table.values_map, Entity.missingAccessors_extended]
  have hsame : (d.mapObjects Entity.extended).mapObjects Entity.extended =
      d.mapObjects Entity.extended := by
    simp only [mapObjects_mapObjects, Entity.extended_extended]
  rw [synthesizeAccessors_eq, hnone]
  exact congrArg (fun d' => Except.ok (d', 0)) hsame

/-- Adding accessors always succeeds. Every entity gains the accessors that its private attributes
lack, the first attribute of an accessor name giving the type, and nothing else changes. The number
tells how many methods are new, and a second time there is nothing to add. -/
theorem synthesizeAccessors_effect (d : Diagram) :
    (∀ m : Member, m.accessorName =
      (if m.type? = some (.primitive "boolean") then "is" else "get") ++
        String.ofList ((m.name.toList.take 1).flatMap Text.uppercase ++ m.name.toList.drop 1)) ∧
    ∃ objects count, d.synthesizeAccessors = .ok ({ d with objects := objects }, count) ∧
      d.objects.Related (fun e e' => ∃ added, e.Gains added e') objects ∧
      ({ d with objects := objects } : Diagram).methodCount = d.methodCount + count ∧
      ({ d with objects := objects } : Diagram).synthesizeAccessors =
        .ok ({ d with objects := objects }, 0) := by
  refine ⟨Member.accessorName_eq, d.objects.map Entity.extended, _, synthesizeAccessors_eq d, ?_,
    methodCount_mapObjects_extended d, synthesizeAccessors_extended d⟩
  exact Table.related_map (fun e => ⟨e.missingAccessors, Entity.gains_extended e⟩) d.objects

/-- Attributes of which two share an accessor name through the upper case of a ligature, and one
has a handwritten method of its accessor's name. -/
def survey : Entity where
  name := "Survey"
  content := .classContent {
    attributes := [.attr "\ufb01eld" .privateAccess (.named "Plot"),
      .attr "fIeld" .privateAccess (.named "String"),
      .attr "open" .privateAccess (.primitive "boolean"),
      .attr "Open" .privateAccess (.named "Boolean"),
      .attr "owner" .privateAccess (.named "Person"),
      { Member.attr "count" .privateAccess (.primitive "int") with isStatic := true },
      .attr "id" .publicAccess (.primitive "long")]
    methods := [.method "getOwner" .publicAccess [⟨"index", .primitive "int"⟩] .void] }

def surveys : Diagram where
  objects := Table.empty.insert "Survey" survey

/-- Three of five attributes get a method; the other two find one of that name. -/
theorem synthesizeAccessors_effect_surveys :
    survey.Sorted ∧ ∃ objects, surveys.synthesizeAccessors =
        .ok ({ surveys with objects := objects }, 3) ∧
      ∃ e' added, objects.entries = [("Survey", e')] ∧ survey.Gains added e' ∧
        added.map (fun a => (a.name, a.kind)) =
          [("getFIeld", .method [] (.named "Plot") false),
            ("isOpen", .method [] (.primitive "boolean") false),
            ("getOpen", .method [] (.named "Boolean") false)] ∧
        ∀ m ∈ survey.attributes, m.visibility = .privateAccess → m.isStatic = false →
          ∃ a ∈ e'.methods, a.name = m.accessorName := by
  have hs : survey.Sorted := by decide
  obtain ⟨_, objects, count, hok, hrelated, _⟩ := synthesizeAccessors_effect surveys
  obtain ⟨hd, rfl⟩ := Prod.mk.inj (Except.ok.inj (hok.symm.trans (synthesizeAccessors_eq surveys)))
  obtain rfl : objects = surveys.objects.map (·.extended) := congrArg Diagram.objects hd
  have hentries : List.Forall₂ (fun entry entry' : String × Entity => entry'.1 = entry.1 ∧
      ∃ added, entry.2.Gains added entry'.2) [("Survey", survey)]
      [("Survey", survey.extended)] := hrelated
  obtain ⟨_, added, hgains⟩ : _ ∧ ∃ added, survey.Gains added survey.extended :=
    (List.forall₂_cons.mp hentries).1
  have hadded : added = survey.missingAccessors :=
    List.append_cancel_left (hgains.methods.symm.trans survey.methods_extended)
  refine ⟨hs, surveys.objects.map (·.extended), ?_, survey.extended, added, rfl, hgains, ?_,
    hgains.complete hs⟩
  · rw [hok]
    have hthree : (surveys.objects.values.flatMap (·.missingAccessors)).length = 3 := by
      decide +kernel
    rw [hthree]
  · rw [hadded]
    decide +kernel

end Diagram

end ClassDiagram
