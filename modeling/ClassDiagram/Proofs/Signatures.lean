import ClassDiagram.Proofs.Merging
import Mathlib.Data.List.Nodup

/-!
# What a signature tells

The signature of a method or a constructor is one text: the name, and in
parentheses the rendered types of the arguments with a comma and a blank between
them. Nothing keeps such a separator out of a rendered type, since source text
is rendered as it stands, and nothing keeps a parenthesis out of a name. So a
signature tells the items between the separators, and not which of them belong
to one argument. Without separators in source text and parentheses in names it
tells everything.
-/

namespace ClassDiagram

/-! ## Lists as texts -/

/-- The stretches of a text between the separators of a list. -/
def listItems : List Char → List (List Char)
  | [] => [[]]
  | ',' :: ' ' :: rest => [] :: listItems rest
  | c :: rest => (listItems rest).modifyHead (c :: ·)

theorem listItems_cons {c : Char} {rest : List Char}
    (h : ∀ later, c = ',' → rest = ' ' :: later → False) :
    listItems (c :: rest) = (listItems rest).modifyHead (c :: ·) :=
  listItems.eq_3 c rest h

theorem listItems_ne_nil (s : List Char) : listItems s ≠ [] := by
  fun_induction listItems s with
  | case1 => exact List.cons_ne_nil _ _
  | case2 rest ih => exact List.cons_ne_nil _ _
  | case3 c rest hsep ih =>
      obtain ⟨item, items, hitems⟩ := List.exists_cons_of_ne_nil ih
      rw [hitems]
      exact List.cons_ne_nil _ _

theorem intercalate_listItems (s : List Char) : [',', ' '].intercalate (listItems s) = s := by
  fun_induction listItems s with
  | case1 => rfl
  | case2 rest ih =>
      obtain ⟨item, items, hitems⟩ := List.exists_cons_of_ne_nil (listItems_ne_nil rest)
      rw [hitems] at ih ⊢
      rw [List.intercalate_cons_cons, ih]
      rfl
  | case3 c rest hsep ih =>
      obtain ⟨item, items, hitems⟩ := List.exists_cons_of_ne_nil (listItems_ne_nil rest)
      rw [hitems] at ih ⊢
      cases items with
      | nil => exact congrArg (c :: ·) ih
      | cons next later =>
          rw [List.intercalate_cons_cons] at ih
          rw [List.modifyHead_cons, List.intercalate_cons_cons]
          exact congrArg (c :: ·) ih

theorem listItems_injective : Function.Injective listItems :=
  Function.LeftInverse.injective intercalate_listItems

/-- A separator between two texts cuts them apart, whatever the texts hold. -/
theorem listItems_append (s t : List Char) :
    listItems (s ++ ',' :: ' ' :: t) = listItems s ++ listItems t := by
  fun_induction listItems s with
  | case1 => rfl
  | case2 rest ih => exact congrArg ([] :: ·) ih
  | case3 c rest hsep ih =>
      -- a comma at the end of `s` is followed by another comma, so no separator begins there
      have hopen : ∀ later, c = ',' → rest ++ ',' :: ' ' :: t = ' ' :: later → False := by
        intro later hc hblank
        cases rest with
        | nil => cases hblank
        | cons next rest => exact hsep rest hc (by rw [(List.cons.inj hblank).1])
      obtain ⟨item, items, hitems⟩ := List.exists_cons_of_ne_nil (listItems_ne_nil rest)
      rw [List.cons_append, listItems_cons hopen, ih, hitems]
      rfl

theorem listItems_intercalate {texts : List (List Char)} (h : texts ≠ []) :
    listItems ([',', ' '].intercalate texts) = texts.flatMap listItems := by
  induction texts with
  | nil => exact absurd rfl h
  | cons text rest ih =>
      cases rest with
      | nil => simp
      | cons next later =>
          calc listItems ([',', ' '].intercalate (text :: next :: later))
              = listItems (text ++ ',' :: ' ' :: [',', ' '].intercalate (next :: later)) := by
                rw [List.intercalate_cons_cons, List.append_assoc]
                rfl
            _ = listItems text ++ listItems ([',', ' '].intercalate (next :: later)) :=
                listItems_append ..
            _ = (text :: next :: later).flatMap listItems := by
                rw [ih (List.cons_ne_nil _ _)]
                rfl

/-- A text is one item exactly if it holds no separator. -/
theorem listItems_eq_singleton_iff (s : List Char) :
    listItems s = [s] ↔ ¬ [',', ' '] <:+: s := by
  fun_induction listItems s with
  | case1 => simp
  | case2 rest ih =>
      refine iff_of_false ?_ (not_not_intro ?_)
      · intro h
        exact List.cons_ne_nil _ _ (List.cons.inj h).1.symm
      · exact (List.prefix_append [',', ' '] rest).isInfix
  | case3 c rest hsep ih =>
      have hopen : ¬ [',', ' '] <+: c :: rest := by
        intro h
        obtain ⟨rfl, later, rfl⟩ := List.cons_prefix_cons.mp h
        exact hsep later rfl rfl
      have hhead : (listItems rest).modifyHead (c :: ·) = [c :: rest] ↔
          listItems rest = [rest] := by
        obtain ⟨item, items, hitems⟩ := List.exists_cons_of_ne_nil (listItems_ne_nil rest)
        simp [hitems]
      rw [hhead, ih, List.infix_cons_iff, or_iff_right hopen]

/-- The items of a list of texts that is written with separators. No text at all is written like
an empty one. -/
def argumentItems : List String → List (List Char)
  | [] => [[]]
  | texts => texts.flatMap (listItems ·.toList)

theorem listItems_toList_intercalate (texts : List String) :
    listItems (", ".intercalate texts).toList = argumentItems texts := by
  cases texts with
  | nil => rfl
  | cons text rest =>
      have hne : (text :: rest).map String.toList ≠ [] := List.cons_ne_nil _ _
      calc listItems (", ".intercalate (text :: rest)).toList
          = listItems ([',', ' '].intercalate ((text :: rest).map String.toList)) := by
            rw [String.toList_intercalate]
            rfl
        _ = argumentItems (text :: rest) := by
            rw [listItems_intercalate hne, List.flatMap_map]
            rfl

/-- Two lists are written alike exactly if they have the same items. -/
theorem intercalate_eq_iff (texts texts' : List String) :
    ", ".intercalate texts = ", ".intercalate texts' ↔
      argumentItems texts = argumentItems texts' := by
  rw [← listItems_toList_intercalate, ← listItems_toList_intercalate, listItems_injective.eq_iff,
    String.toList_inj]

/-- A list of texts of which each is one item. A single empty text is left out, since it is
written like no text. -/
structure Separable (texts : List String) : Prop where
  no_separator : ∀ text ∈ texts, ¬ [',', ' '] <:+: text.toList
  ne_empty : texts ≠ [""]

theorem Separable.argumentItems_eq_map {texts : List String} (h : Separable texts)
    (hne : texts ≠ []) : argumentItems texts = texts.map String.toList := by
  cases texts with
  | nil => exact absurd rfl hne
  | cons text rest =>
      rw [List.map_eq_flatMap]
      apply List.flatMap_congr
      intro text ht
      exact (listItems_eq_singleton_iff text.toList).mpr (h.no_separator text ht)

theorem Separable.argumentItems_ne {texts : List String} (h : Separable texts)
    (hne : texts ≠ []) : argumentItems texts ≠ argumentItems [] := by
  rw [h.argumentItems_eq_map hne]
  intro hempty
  obtain ⟨text, rfl, htext⟩ := List.map_eq_singleton_iff.mp hempty
  exact h.ne_empty (by rw [String.toList_eq_nil_iff.mp htext])

theorem Separable.argumentItems_inj {texts texts' : List String} (h : Separable texts)
    (h' : Separable texts') : argumentItems texts = argumentItems texts' ↔ texts = texts' := by
  refine ⟨fun heq => ?_, fun heq => heq ▸ rfl⟩
  -- an empty list has one item too, which the other list then holds as its only text
  by_cases hne : texts = [] <;> by_cases hne' : texts' = []
  · rw [hne, hne']
  · rw [hne] at heq
    exact absurd heq.symm (h'.argumentItems_ne hne')
  · rw [hne'] at heq
    exact absurd heq (h.argumentItems_ne hne)
  · rw [h.argumentItems_eq_map hne, h'.argumentItems_eq_map hne'] at heq
    have hinjective : Function.Injective String.toList := fun _ _ => String.toList_injective
    exact hinjective.list_map heq

/-! ## Rendered types -/

theorem infix_append_iff_of_notMem {α : Type} {x : α} {pattern before : List α} (h : x ∉ before)
    (s : List α) : x :: pattern <:+: before ++ s ↔ x :: pattern <:+: s := by
  induction before with
  | nil => rfl
  | cons y rest ih =>
      have hfirst : ¬ x :: pattern <+: y :: (rest ++ s) := by
        intro hp
        exact h (List.mem_cons.mpr (Or.inl (List.cons_prefix_cons.mp hp).1))
      rw [List.cons_append, List.infix_cons_iff, or_iff_right hfirst]
      exact ih fun hx => h (List.mem_cons_of_mem y hx)

namespace TypeExpr

/-- The text inside all containers. -/
def innermost : TypeExpr → String
  | list item | set item | optional item => item.innermost
  | primitive name | named name => name
  | void => "void"
  | source text => text

/-- Brackets around a text bring in no separator. -/
theorem separator_infix_wrap_iff {before behind : List Char} (hb : ',' ∉ before)
    (hc : ' ' ∉ behind) (s : List Char) :
    [',', ' '] <:+: before ++ s ++ behind ↔ [',', ' '] <:+: s := by
  have hbehind : ' ' ∉ behind.reverse := mt List.mem_reverse.mp hc
  -- from the end, a separator begins with the blank
  have hreverse (t : List Char) : [',', ' '] <:+: t ↔ [' ', ','] <:+: t.reverse :=
    List.reverse_infix.symm
  rw [List.append_assoc, infix_append_iff_of_notMem hb, hreverse, List.reverse_append,
    infix_append_iff_of_notMem hbehind, hreverse]

/-- Only the innermost text of a type can bring a separator in. -/
theorem separator_infix_render_iff (type : TypeExpr) :
    [',', ' '] <:+: type.render.toList ↔ [',', ' '] <:+: type.innermost.toList := by
  have hwrap (container : String) (item : TypeExpr) (hc : ',' ∉ container.toList) :
      [',', ' '] <:+: (container ++ item.render ++ ">").toList ↔
        [',', ' '] <:+: item.render.toList := by
    rw [String.toList_append, String.toList_append]
    exact separator_infix_wrap_iff hc (by decide) _
  induction type with
  | list item ih => exact (hwrap "List<" item (by decide)).trans ih
  | set item ih => exact (hwrap "Set<" item (by decide)).trans ih
  | optional item ih => exact (hwrap "Optional<" item (by decide)).trans ih
  | primitive | named | void | source => exact Iff.rfl

end TypeExpr

/-! ## Calls -/

/-- The second name goes on where the first one has its opening parenthesis, and the first list of
arguments runs through the rest of that name. -/
def RunsInto (name text name' text' : String) : Prop :=
  ∃ rest, name' = name ++ "(" ++ rest ∧ text = rest ++ "(" ++ text'

/-- A name that reaches as far as another one, or into the arguments behind it. -/
theorem eq_or_runsInto {name text name' text' : String} {rest : List Char}
    (hn : name'.toList = name.toList ++ rest)
    (ht : '(' :: text.toList = rest ++ '(' :: text'.toList) :
    name = name' ∧ text = text' ∨ RunsInto name text name' text' := by
  cases rest with
  | nil =>
      have hname : name' = name := String.toList_injective (by simpa using hn)
      have htext : text = text' := String.toList_injective (List.cons.inj ht).2
      exact Or.inl ⟨hname.symm, htext⟩
  | cons c rest =>
      obtain ⟨rfl, ht⟩ := List.cons.inj ht
      refine Or.inr ⟨String.ofList rest, ?_, ?_⟩
      · apply String.toList_injective
        simpa using hn
      · apply String.toList_injective
        simpa using ht

/-- Two calls are written alike if they have the same name and the same argument text, or if the
name of one runs into the arguments of the other. -/
theorem call_eq_iff (name text name' text' : String) :
    name ++ "(" ++ text ++ ")" = name' ++ "(" ++ text' ++ ")" ↔
      name = name' ∧ text = text' ∨ RunsInto name text name' text' ∨
        RunsInto name' text' name text := by
  constructor
  · intro h
    have hchars : name.toList ++ '(' :: text.toList = name'.toList ++ '(' :: text'.toList := by
      have hlist := congrArg String.toList h
      simp only [String.toList_append] at hlist
      simpa using List.append_cancel_right hlist
    -- the name that ends first is followed by its parenthesis within the other one
    rcases List.append_eq_append_iff.mp hchars with ⟨rest, hn, ht⟩ | ⟨rest, hn, ht⟩
    · exact (eq_or_runsInto hn ht).imp_right Or.inl
    · exact (eq_or_runsInto hn ht).imp (fun heq => ⟨heq.1.symm, heq.2.symm⟩) Or.inr
  · rintro (⟨rfl, rfl⟩ | ⟨rest, rfl, rfl⟩ | ⟨rest, rfl, rfl⟩)
    · rfl
    · simp only [String.append_assoc]
    · simp only [String.append_assoc]

theorem not_runsInto {name text name' text' : String} (h : '(' ∉ name'.toList) :
    ¬ RunsInto name text name' text' := by
  rintro ⟨rest, rfl, _⟩
  apply h
  simp

namespace Member

/-- The arguments of a method or a constructor. -/
def args? (m : Member) : Option (List Argument) :=
  match m.kind with
  | .method args _ _ | .constructor args => some args
  | .attr _ | .constant => none

/-- The rendered types of the arguments of a method or a constructor. -/
def argTypes? (m : Member) : Option (List String) :=
  m.args?.map fun args => args.map (·.type.render)

/-- Two members that are the same overload. -/
def SameOverload (m m' : Member) : Prop :=
  m.name = m'.name ∧ m.argTypes? = m'.argTypes?

instance (m m' : Member) : Decidable (m.SameOverload m') :=
  inferInstanceAs (Decidable (_ ∧ _))

/-- Neither the name nor the types of a call hold what stands between them in a signature. -/
structure Plain (m : Member) : Prop where
  name : '(' ∉ m.name.toList
  args : ∃ args, m.args? = some args ∧ args.map (·.type.render) ≠ [""] ∧
    ∀ arg ∈ args, ¬ [',', ' '] <:+: arg.type.innermost.toList

theorem signature_eq (m : Member) :
    m.signature = match m.argTypes? with
      | some types => m.name ++ "(" ++ ", ".intercalate types ++ ")"
      | none => m.name := by
  unfold signature argTypes? args?
  cases m.kind <;> rfl

theorem SameOverload.signature_eq {m m' : Member} (h : m.SameOverload m') :
    m.signature = m'.signature := by
  rw [Member.signature_eq, Member.signature_eq, h.1, h.2]

theorem signature_eq_iff {m m' : Member} {types types' : List String}
    (h : m.argTypes? = some types) (h' : m'.argTypes? = some types') :
    m.signature = m'.signature ↔
      m.name = m'.name ∧ argumentItems types = argumentItems types' ∨
        RunsInto m.name (", ".intercalate types) m'.name (", ".intercalate types') ∨
        RunsInto m'.name (", ".intercalate types') m.name (", ".intercalate types) := by
  rw [signature_eq, signature_eq, h, h']
  dsimp only
  rw [call_eq_iff, intercalate_eq_iff]

theorem Plain.exists_separable {m : Member} (h : m.Plain) :
    ∃ types, m.argTypes? = some types ∧ Separable types := by
  obtain ⟨args, hargs, hne, hsource⟩ := h.args
  refine ⟨args.map (·.type.render), by rw [argTypes?, hargs, Option.map_some], ?_, hne⟩
  intro text ht
  obtain ⟨arg, ha, rfl⟩ := List.mem_map.mp ht
  exact mt (TypeExpr.separator_infix_render_iff arg.type).mp (hsource arg ha)

theorem Plain.signature_eq_iff {m m' : Member} (h : m.Plain) (h' : m'.Plain) :
    m.signature = m'.signature ↔ m.SameOverload m' := by
  obtain ⟨types, ht, hsep⟩ := h.exists_separable
  obtain ⟨types', ht', hsep'⟩ := h'.exists_separable
  rw [Member.signature_eq_iff ht ht', or_iff_left (not_or_intro (not_runsInto h'.name)
    (not_runsInto h.name)), hsep.argumentItems_inj hsep', SameOverload, ht, ht',
    Option.some.injEq]

/-- The brackets of a container separate nothing. -/
example : (method "put" .publicAccess [⟨"key", .named "Key"⟩, ⟨"values", .list (.named "Value")⟩]
    .void).Plain :=
  ⟨by decide, _, rfl, by decide, by decide⟩

end Member

/-! ## Merging -/

/-- What a union loses of the incoming members: an overload that is not there before is lost
exactly if another one stands under its signature, and no plain overload is lost to plain ones. -/
structure LosesOnlyShared (present incoming united : List Member) : Prop where
  lost_iff : (present.map Member.signature).Nodup → ∀ m ∈ incoming,
    (∀ held ∈ united, ¬ held.SameOverload m) ↔
      ∃ held ∈ united, held.signature = m.signature ∧ ¬ held.SameOverload m
  kept : (∀ m ∈ present ++ incoming, m.Plain) →
    ∀ m ∈ incoming, ∃ held ∈ united, held.SameOverload m

theorem mem_of_mem_newBy {α : Type} {key : α → String} {present incoming : List α} {new : α}
    (h : new ∈ newBy key present incoming) : new ∈ incoming := by
  obtain ⟨m, hm, rfl⟩ := List.mem_map.mp h
  exact List.fst_mem_of_mem_zipIdx (List.mem_of_mem_filter hm)

theorem IsUnionBy.losesOnlyShared {present incoming united : List Member}
    (h : IsUnionBy Member.signature present incoming united) :
    LosesOnlyShared present incoming united := by
  have hheld (m : Member) (hm : m ∈ incoming) : ∃ held ∈ united, held.signature = m.signature :=
    List.mem_map.mp ((h.mem_keys m.signature).mpr (Or.inr (List.mem_map_of_mem hm)))
  constructor
  · intro hn m hm
    constructor
    · intro hlost
      obtain ⟨held, hu, hs⟩ := hheld m hm
      exact ⟨held, hu, hs, hlost held hu⟩
    · rintro ⟨held, hu, hs, hother⟩ same hsame ho
      -- the united list holds the signature once
      have heq : same = held :=
        List.inj_on_of_nodup_map (h.nodup hn) hsame hu (ho.signature_eq.trans hs.symm)
      exact hother (heq ▸ ho)
  · intro hplain m hm
    obtain ⟨held, hu, hs⟩ := hheld m hm
    have hmem : held ∈ present ++ incoming := by
      rw [h.eq_append] at hu
      rcases List.mem_append.mp hu with hp | hnew
      · exact List.mem_append_left _ hp
      · exact List.mem_append_right _ (mem_of_mem_newBy hnew)
    have hpm := hplain m (List.mem_append_right _ hm)
    exact ⟨held, hu, ((hplain held hmem).signature_eq_iff hpm).mp hs⟩

/-- Two calls have the same signature exactly if they have the same name and their arguments the
same items, or if the name of one runs into the arguments of the other. Plain calls have the same
signature only if they are the same overload. Two definitions are merged accordingly: an overload
of the second one is lost to another overload of its signature, and to nothing else. -/
theorem overloads_distinct_iff {m m' : Member} {types types' : List String}
    (h : m.argTypes? = some types) (h' : m'.argTypes? = some types') :
    (m.signature = m'.signature ↔
      m.name = m'.name ∧ argumentItems types = argumentItems types' ∨
        RunsInto m.name (", ".intercalate types) m'.name (", ".intercalate types') ∨
        RunsInto m'.name (", ".intercalate types') m.name (", ".intercalate types)) ∧
      (m.Plain → m'.Plain →
        (m.signature = m'.signature ↔ m.name = m'.name ∧ types = types')) ∧
      ∀ e other merged : Entity, e.isPlaceholder = false → other.isPlaceholder = false →
        e.merge other = .ok merged →
          LosesOnlyShared e.methods other.methods merged.methods ∧
            LosesOnlyShared e.constructors other.constructors merged.constructors := by
  refine ⟨Member.signature_eq_iff h h', ?_, ?_⟩
  · intro hplain hplain'
    rw [hplain.signature_eq_iff hplain', Member.SameOverload, h, h', Option.some.injEq]
  · intro e other merged he ho hm
    have hunion := Entity.isUnion_of_merge he ho hm
    exact ⟨hunion.methods.losesOnlyShared, hunion.constructors.losesOnlyShared⟩

/-- The arguments of a call that takes a key and a value. -/
def pairArguments : List Argument :=
  [⟨"key", .named "Key"⟩, ⟨"value", .named "Value"⟩]

/-- The argument of a call that takes both at once, in a type that was not taken apart. -/
def entryArguments : List Argument :=
  [⟨"entry", .source "Key, Value"⟩]

/-- The method that puts something into a store. -/
def putOf (args : List Argument) : Member :=
  .method "put" .publicAccess args .void

/-- A store with a constructor and a method for some arguments. -/
def storeOf (args : List Argument) : Entity :=
  { name := "Store"
    content := .classContent
      { constructors := [.constructor "Store" .publicAccess args]
        methods := [putOf args] } }

/-- A key and a value make the items of an entry, and of no plain call with another list of types.
So a store that takes both apart loses the overload for entries of another store. -/
theorem overloads_distinct_iff_putOf :
    (putOf pairArguments).argTypes? = some ["Key", "Value"] ∧
      (putOf entryArguments).argTypes? = some ["Key, Value"] ∧
      (putOf pairArguments).signature = (putOf entryArguments).signature ∧
      (putOf pairArguments).signature ≠ (putOf [⟨"key", .named "Key"⟩]).signature ∧
      (storeOf pairArguments).merge (storeOf entryArguments) = .ok (storeOf pairArguments) ∧
      ∀ held ∈ (storeOf pairArguments).methods, ¬ held.SameOverload (putOf entryArguments) := by
  have hmerge : (storeOf pairArguments).merge (storeOf entryArguments) =
      .ok (storeOf pairArguments) := by decide +kernel
  have htypes : (putOf pairArguments).argTypes? = some ["Key", "Value"] := rfl
  have htypes' : (putOf entryArguments).argTypes? = some ["Key, Value"] := rfl
  have hkeyTypes : (putOf [⟨"key", .named "Key"⟩]).argTypes? = some ["Key"] := rfl
  have hpair : (putOf pairArguments).Plain := ⟨by decide, _, rfl, by decide, by decide⟩
  have hkey : (putOf [⟨"key", .named "Key"⟩]).Plain := ⟨by decide, _, rfl, by decide, by decide⟩
  obtain ⟨hsame, -, hlost⟩ := overloads_distinct_iff htypes htypes'
  obtain ⟨-, hplain, -⟩ := overloads_distinct_iff htypes hkeyTypes
  refine ⟨htypes, htypes', hsame.mpr (Or.inl ⟨rfl, by decide⟩), ?_, hmerge, ?_⟩
  · intro heq
    exact absurd ((hplain hpair hkey).mp heq).2 (by decide)
  · have hunion := (hlost _ _ _ rfl rfl hmerge).1
    apply (hunion.lost_iff (List.nodup_singleton _) _ List.mem_cons_self).mpr
    exact ⟨putOf pairArguments, List.mem_cons_self, by decide +kernel, by decide⟩

/-- Two arguments and one can make the same signature, and then one overload is lost. -/
theorem not_forall_overloads_distinct :
    (∀ sort ∈ [MemberSort.method, MemberSort.constructor],
      ¬ ∀ (m m' : Member) (types types' : List String), m.sort = sort → m'.sort = sort →
        m.argTypes? = some types → m'.argTypes? = some types' → m.signature = m'.signature →
          m.name = m'.name ∧ types.length = types'.length ∧ types = types') ∧
      ∀ calls ∈ [Entity.methods, Entity.constructors],
        ¬ ∀ e other merged : Entity, e.kind = .classKind → other.kind = .classKind →
          e.merge other = .ok merged →
            ∀ m ∈ calls other, (∀ held ∈ calls e, ¬ held.SameOverload m) →
              ∃ kept ∈ calls merged, kept.SameOverload m := by
  have hmerge : (storeOf pairArguments).merge (storeOf entryArguments) =
      .ok (storeOf pairArguments) := by decide +kernel
  constructor
  · intro sort hsort hall
    have hlength : 2 = 1 := by
      rcases List.mem_pair.mp hsort with rfl | rfl
      · exact (hall (putOf pairArguments) (putOf entryArguments) ["Key", "Value"] ["Key, Value"]
          rfl rfl rfl rfl (by decide +kernel)).2.1
      · exact (hall (.constructor "Store" .publicAccess pairArguments)
          (.constructor "Store" .publicAccess entryArguments) ["Key", "Value"] ["Key, Value"]
          rfl rfl rfl rfl (by decide +kernel)).2.1
    cases hlength
  · intro calls hcalls hall
    have hlost : ∃ m ∈ calls (storeOf entryArguments),
        ∀ held ∈ calls (storeOf pairArguments), ¬ held.SameOverload m := by
      rcases List.mem_pair.mp hcalls with rfl | rfl <;> decide
    obtain ⟨m, hm, hother⟩ := hlost
    obtain ⟨kept, hkept, hsame⟩ := hall _ _ _ rfl rfl hmerge m hm hother
    exact hother kept hkept hsame

end ClassDiagram
