import ClassDiagram.Proofs.PackageTree

/-!
# The root of a package tree

The root stands as deep as the packages of the declared entities allow. One segment further down
some entity would be left out, because it stands in the root itself or in another package below
it. The path can also be told by its length alone: it is a beginning of the first package, and
each further package narrows it.
-/

namespace ClassDiagram

/-! ## Narrowing a length -/

/-- How many segments two paths share at their beginnings, counted up to a bound. -/
def sharedLength (first : List String) (bound : Nat) (path : List String) : Nat :=
  (((first.zip path).take bound).takeWhile fun pair => pair.1 = pair.2).length

theorem sharedLength_le (first path : List String) (bound : Nat) :
    sharedLength first bound path ≤ bound := by
  calc
    sharedLength first bound path ≤ ((first.zip path).take bound).length :=
      (List.takeWhile_sublist _).length_le
    _ ≤ bound := List.length_take_le _ _

theorem take_sharedLength (first path : List String) (bound : Nat) :
    first.take (sharedLength first bound path) = commonStart (first.take bound) path := by
  induction first generalizing bound path with
  | nil => simp [commonStart]
  | cons a first ih =>
      cases bound with
      | zero => simp [sharedLength, commonStart]
      | succ bound =>
          cases path with
          | nil => simp [sharedLength, commonStart]
          | cons b path =>
              by_cases hab : a = b
              · have hlength : sharedLength (a :: first) (bound + 1) (b :: path) =
                    sharedLength first bound path + 1 := by
                  simp [sharedLength, hab]
                rw [hlength, List.take_succ_cons, ih, List.take_succ_cons, commonStart, if_pos hab]
              · simp [sharedLength, commonStart, hab]

theorem foldl_sharedLength_le (others : List (List String)) (first : List String) (bound : Nat) :
    others.foldl (sharedLength first) bound ≤ bound := by
  induction others generalizing bound with
  | nil => exact Nat.le_refl bound
  | cons path rest ih => exact Nat.le_trans (ih _) (sharedLength_le first path bound)

/-- Narrowing the length path by path leaves what all of them begin with. -/
theorem take_foldl_sharedLength (others : List (List String)) (first : List String) (bound : Nat) :
    first.take (others.foldl (sharedLength first) bound) =
      others.foldl commonStart (first.take bound) := by
  induction others generalizing bound with
  | nil => rfl
  | cons path rest ih => rw [List.foldl_cons, ih, take_sharedLength, List.foldl_cons]

/-! ## The path of the root -/

/-- A path that all given paths begin with, and that every other such path is a beginning of. -/
structure IsLongestStart (start : List String) (paths : List (List String)) : Prop where
  isPrefix : ∀ p ∈ paths, start <+: p
  longest : ∀ s, (∀ p ∈ paths, s <+: p) → s <+: start

theorem Package.mem_packages_of_get? {p child : Package} {segment : String}
    (h : p.get? [segment] = some child) : child ∈ p.packages := by
  obtain ⟨found, hfound, hchild⟩ := Option.bind_eq_some_iff.mp h
  obtain rfl := Option.some.inj hchild
  exact List.mem_of_find?_eq_some hfound

namespace Diagram

variable {d : Diagram}

/-- The declared entities in the order of registration. -/
def declarations (d : Diagram) : List Entity :=
  d.objects.values.filter (!·.isPlaceholder)

theorem map_snd_declared (d : Diagram) : d.declared.map Prod.snd = d.declarations := by
  have hvalues : d.objects.values.zipIdx.map Prod.fst = d.objects.values :=
    List.zipIdx_map_fst 0 d.objects.values
  rw [declarations, ← hvalues, List.filter_map, declared, registered, List.filter_map,
    List.map_map]
  rfl

theorem commonPackage_of_declared_eq_nil (h : d.declared = []) : d.commonPackage = [] := by
  rw [commonPackage, h]
  rfl

theorem isLongestStart_commonPackage (h : d.declared ≠ []) :
    IsLongestStart d.commonPackage (d.declared.map (·.2.package)) where
  isPrefix := List.forall_mem_map.mpr fun _ he => commonPackage_isPrefix he
  longest s hs := (isPrefix_commonPackage_iff h s).mpr (List.forall_mem_map.mp hs)

/-- Declared entities alone decide where the root stands. -/
theorem commonPackage_congr {d' : Diagram} (h : d'.declarations = d.declarations) :
    d'.commonPackage = d.commonPackage := by
  have hpackages (d : Diagram) :
      d.declared.map (·.2.package) = d.declarations.map (·.package) := by
    rw [← map_snd_declared, List.map_map]
    rfl
  rw [commonPackage, commonPackage, hpackages, hpackages, h]

/-- Not all entities stand below the same package of the root. -/
theorem exists_not_isPrefix_relativePackage (h : d.declared ≠ []) (segment : String) :
    ∃ e ∈ d.declared, ¬ [segment] <+: d.relativePackage e.2 := by
  by_contra! hall
  have hdeeper : d.packageTree.path ++ [segment] <+: d.commonPackage := by
    refine (isPrefix_commonPackage_iff h _).mpr fun e he => ?_
    rw [package_eq_append he, List.prefix_append_right_inj]
    exact hall e he
  have hlength := hdeeper.length_le
  rw [path_packageTree, List.length_append, List.length_singleton] at hlength
  omega

/-- A package below the root on the way to an entity that does not stand in the root. -/
theorem exists_mem_packages {e : Ref × Entity} (he : e ∈ d.declared) {segment : String}
    {rest : List String} (hr : d.relativePackage e.2 = segment :: rest) :
    ∃ p ∈ d.packageTree.packages, p.path = d.packageTree.path ++ [segment] := by
  have hsome : (d.packageTree.get? [segment]).isSome = true :=
    (d.isSome_get?_packageTree [segment]).mpr (Or.inr ⟨e, he, by rw [hr]; simp⟩)
  obtain ⟨p, hp⟩ := Option.isSome_iff_exists.mp hsome
  exact ⟨p, Package.mem_packages_of_get? hp, Package.path_of_get? hp⟩

theorem objects_ne_nil_or_exists_packages (h : d.declared ≠ []) :
    d.packageTree.objects ≠ [] ∨
      ∃ p ∈ d.packageTree.packages, ∃ q ∈ d.packageTree.packages, p.path ≠ q.path := by
  refine or_iff_not_imp_left.mpr fun hnone => ?_
  have hbelow : ∀ e ∈ d.declared, d.relativePackage e.2 ≠ [] := by
    intro e he hr
    rw [not_not, objects_of_get? d.packageTree.get?_nil, List.map_eq_nil_iff,
      List.filter_eq_nil_iff] at hnone
    exact hnone e he (decide_eq_true hr)
  obtain ⟨e, he⟩ := List.exists_mem_of_ne_nil _ h
  obtain ⟨segment, rest, hr⟩ := List.exists_cons_of_ne_nil (hbelow e he)
  obtain ⟨e', he', hother⟩ := exists_not_isPrefix_relativePackage h segment
  obtain ⟨segment', rest', hr'⟩ := List.exists_cons_of_ne_nil (hbelow e' he')
  obtain ⟨p, hp, hpath⟩ := exists_mem_packages he hr
  obtain ⟨q, hq, hpath'⟩ := exists_mem_packages he' hr'
  refine ⟨p, hp, q, hq, fun hsame => hother ?_⟩
  rw [hpath, hpath', List.append_cancel_left_eq] at hsame
  rw [hr', (List.cons.inj hsame).1]
  exact List.prefix_append [segment'] rest'

/-- The root stands as deep as it can. If anything is declared, its path is the longest one that
the packages of all declared entities begin with; it is cut off the first package at a length that
every other package narrows, and something stands in the root itself or two different packages
stand below it. If nothing is declared, the path is empty. Placeholders make no difference. -/
theorem packageTree_root (d : Diagram) :
    (d.declared ≠ [] →
      IsLongestStart d.packageTree.path (d.declared.map (·.2.package)) ∧
        (d.packageTree.objects ≠ [] ∨
          ∃ p ∈ d.packageTree.packages, ∃ q ∈ d.packageTree.packages, p.path ≠ q.path)) ∧
      (∀ first others, d.declared.map (·.2.package) = first :: others →
        others.foldl (sharedLength first) first.length ≤ first.length ∧
          d.packageTree.path = first.take (others.foldl (sharedLength first) first.length)) ∧
      (d.declared = [] → d.packageTree.path = []) ∧
      ∀ d' : Diagram, d'.declarations = d.declarations →
        d'.packageTree.path = d.packageTree.path := by
  simp only [path_packageTree]
  refine ⟨fun h => ?deepest, fun first others h => ?narrowed, commonPackage_of_declared_eq_nil,
    fun d' h => commonPackage_congr h⟩
  case deepest => exact ⟨isLongestStart_commonPackage h, objects_ne_nil_or_exists_packages h⟩
  case narrowed =>
    refine ⟨foldl_sharedLength_le others first first.length, ?_⟩
    rw [take_foldl_sharedLength, List.take_length, commonPackage, h]

/-- A shop with its orders, and the accounts next to it. -/
def shop : Diagram where
  objects := ((Table.empty.insert
    "Order" (.ofKind .classKind "Order" ["com", "shop", "order"])).insert
    "Cart" (.ofKind .interfaceKind "Cart" ["com", "shop"])).insert
    "User" (.ofKind .enumKind "User" ["com", "auth"])

/-- The shop with a placeholder in front, which stands in a package of its own. -/
def hauntedShop : Diagram where
  objects := (((Table.empty.insert
    "Ghost" (.ofKind .unresolved "Ghost" ["org"])).insert
    "Order" (.ofKind .classKind "Order" ["com", "shop", "order"])).insert
    "Cart" (.ofKind .interfaceKind "Cart" ["com", "shop"])).insert
    "User" (.ofKind .enumKind "User" ["com", "auth"])

/-- The root stands at `com`, with nothing in it and two packages below it, whether or not there is
a placeholder. -/
theorem packageTree_root_shop :
    shop.declared ≠ [] ∧ shop.packageTree.path = ["com"] ∧ shop.packageTree.objects = [] ∧
      IsLongestStart shop.packageTree.path
        [["com", "shop", "order"], ["com", "shop"], ["com", "auth"]] ∧
      (∃ p ∈ shop.packageTree.packages, ∃ q ∈ shop.packageTree.packages, p.path ≠ q.path) ∧
      hauntedShop.declarations = shop.declarations ∧
      hauntedShop.packageTree.path = shop.packageTree.path := by
  have hdeclared : shop.declared ≠ [] := by decide
  have hobjects : shop.packageTree.objects = [] := by decide
  have hsame : hauntedShop.declarations = shop.declarations := by decide
  obtain ⟨hdeepest, hnarrowed, -, hplaceholders⟩ := packageTree_root shop
  obtain ⟨hlongest, hbelow⟩ := hdeepest hdeclared
  refine ⟨hdeclared, ?_, hobjects, hlongest, hbelow.resolve_left (not_not_intro hobjects), hsame,
    hplaceholders hauntedShop hsame⟩
  rw [(hnarrowed ["com", "shop", "order"] [["com", "shop"], ["com", "auth"]] rfl).2]
  decide

end Diagram

end ClassDiagram
