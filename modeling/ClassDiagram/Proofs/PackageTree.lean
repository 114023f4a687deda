import ClassDiagram.Package
import ClassDiagram.Proofs.Inference
import Mathlib.Data.List.Nodup

/-!
# What stands where in a package tree

An entity that is placed at a path is found at this path and below every beginning of it, and
nowhere else. The tree of a diagram places each declared entity once, at its package less the path
of the root, so every package of the tree holds exactly the declared entities of its path.
-/

namespace ClassDiagram

namespace Package

/-! ## Finding a package -/

@[simp] theorem path_empty (path : List String) : (empty path).path = path := rfl

/-- The package that a path leads to; if there is none, one with nothing in it. -/
def atPath (p : Package) (path : List String) : Package :=
  (p.get? path).getD (empty (p.path ++ path))

@[simp] theorem get?_nil (p : Package) : p.get? [] = some p := rfl

theorem get?_cons (p : Package) (segment : String) (rest : List String) :
    p.get? (segment :: rest) = (p.child? segment).bind (·.get? rest) := rfl

@[simp] theorem atPath_nil (p : Package) : p.atPath [] = p := rfl

theorem get?_empty (path : List String) {s : List String} (h : s ≠ []) :
    (empty path).get? s = none := by
  obtain ⟨segment, rest, rfl⟩ := List.exists_cons_of_ne_nil h
  rfl

@[simp] theorem atPath_empty (path s : List String) :
    (empty path).atPath s = empty (path ++ s) := by
  by_cases h : s = []
  · rw [h, atPath_nil, List.append_nil]
  · rw [atPath, get?_empty path h]
    rfl

theorem path_of_child? {p child : Package} {segment : String} (h : p.child? segment = some child) :
    child.path = p.path ++ [segment] := by
  simpa using List.find?_some h

theorem path_of_get? {p found : Package} {s : List String} (h : p.get? s = some found) :
    found.path = p.path ++ s := by
  induction s generalizing p with
  | nil =>
      obtain rfl := Option.some.inj h
      exact (List.append_nil _).symm
  | cons segment rest ih =>
      obtain ⟨child, hchild, hrest⟩ := Option.bind_eq_some_iff.mp h
      rw [ih hrest, path_of_child? hchild, List.append_assoc]
      rfl

/-- A path is followed segment by segment, also where packages are missing. -/
theorem atPath_cons (p : Package) (segment : String) (rest : List String) :
    p.atPath (segment :: rest) = (p.atPath [segment]).atPath rest := by
  cases hchild : p.child? segment with
  | none =>
      have hfirst : p.atPath [segment] = empty (p.path ++ [segment]) := by
        rw [atPath, get?_cons, hchild]
        rfl
      rw [hfirst, atPath_empty, atPath, get?_cons, hchild, List.append_assoc]
      rfl
  | some child =>
      have hfirst : p.atPath [segment] = child := by
        rw [atPath, get?_cons, hchild]
        rfl
      rw [hfirst, atPath, atPath, get?_cons, hchild, path_of_child? hchild, List.append_assoc]
      rfl

/-! ## Placing one entity -/

@[simp] theorem path_place (ref : Ref) (path : List String) (p : Package) :
    (place ref path p).path = p.path := by
  cases path <;> cases p <;> rfl

theorem find?_alter {path : List String} {f : Package → Package} (hf : ∀ p, (f p).path = p.path)
    (packages : List Package) (other : List String) :
    (alter path f packages).find? (·.path = other) =
      if other = path then some (f ((packages.find? (·.path = path)).getD (empty path)))
      else packages.find? (·.path = other) := by
  induction packages with
  | nil => by_cases h : other = path <;> simp [alter, hf, h, eq_comm]
  | cons p rest ih =>
      by_cases hp : p.path = path
      · by_cases h : other = path
        · simp [alter, hp, h, hf]
        · have h' : ¬ path = other := fun e => h e.symm
          simp [alter, hp, h, h', hf]
      · have halter : alter path f (p :: rest) = p :: alter path f rest := if_neg hp
        by_cases ho : p.path = other
        · have h : ¬ other = path := fun e => hp (ho.trans e)
          rw [halter, List.find?_cons_of_pos (by simpa using ho), if_neg h,
            List.find?_cons_of_pos (by simpa using ho)]
        · rw [halter, List.find?_cons_of_neg (by simpa using ho), ih,
            List.find?_cons_of_neg (by simpa using hp), List.find?_cons_of_neg (by simpa using ho)]

theorem child?_place (ref : Ref) (segment : String) (rest : List String) (p : Package)
    (other : String) :
    (place ref (segment :: rest) p).child? other =
      if other = segment then some (place ref rest (p.atPath [segment])) else p.child? other := by
  obtain ⟨path, objects, packages⟩ := p
  have hreached : (node path objects packages).atPath [segment] =
      (packages.find? (·.path = path ++ [segment])).getD (empty (path ++ [segment])) := by
    rw [atPath, get?_cons]
    change ((packages.find? (·.path = path ++ [segment])).bind some).getD _ = _
    rw [Option.bind_fun_some]
    rfl
  have hsame : path ++ [other] = path ++ [segment] ↔ other = segment := by simp
  calc
    (place ref (segment :: rest) (node path objects packages)).child? other =
        (alter (path ++ [segment]) (place ref rest) packages).find? (·.path = path ++ [other]) :=
      rfl
    _ = if path ++ [other] = path ++ [segment] then
          some (place ref rest ((node path objects packages).atPath [segment]))
        else packages.find? (·.path = path ++ [other]) := by
      rw [find?_alter (path_place ref rest), hreached]
    _ = if other = segment then
          some (place ref rest ((node path objects packages).atPath [segment]))
        else (node path objects packages).child? other := by
      simp only [hsame]
      rfl

/-- What is placed at a path changes the packages at its beginnings, which are made if need be. -/
theorem get?_place_append (ref : Ref) (s rest : List String) (p : Package) :
    (place ref (s ++ rest) p).get? s = some (place ref rest (p.atPath s)) := by
  induction s generalizing p with
  | nil => rfl
  | cons segment s ih =>
      rw [List.cons_append, get?_cons, child?_place, if_pos rfl, Option.bind_some, ih,
        ← atPath_cons]

/-- What is placed at a path changes no other packages. -/
theorem get?_place_of_not_isPrefix (ref : Ref) {s path : List String} (h : ¬ s <+: path)
    (p : Package) : (place ref path p).get? s = p.get? s := by
  induction s generalizing path p with
  | nil => exact absurd List.nil_prefix h
  | cons segment s ih =>
      cases path with
      | nil => cases p; rfl
      | cons other rest =>
          rw [get?_cons, child?_place, get?_cons]
          by_cases hs : segment = other
          · -- The path leaves `s` further below, so a new child has nothing at the rest of `s`.
            have hrest : ¬ s <+: rest := fun hr =>
              h (by rw [hs]; exact (List.prefix_cons_inj _).mpr hr)
            have hne : s ≠ [] := by
              rintro rfl
              exact hrest List.nil_prefix
            rw [if_pos hs, Option.bind_some, ih hrest]
            cases hchild : p.child? segment with
            | none =>
                rw [← hs, atPath, get?_cons, hchild]
                exact get?_empty _ hne
            | some child =>
                rw [← hs, atPath, get?_cons, hchild]
                rfl
          · rw [if_neg hs]

/-! ## What a package and those below it hold -/

theorem collect_node (path : List String) (objects : List Ref) (packages : List Package) :
    (node path objects packages).collect = objects ++ collectAll packages := by
  rw [collect]

theorem collectAll_cons (p : Package) (rest : List Package) :
    collectAll (p :: rest) = p.collect ++ collectAll rest := by
  rw [collectAll]

theorem mem_collectAll {ref : Ref} {p : Package} (h : ref ∈ p.collect) {packages : List Package}
    (hp : p ∈ packages) : ref ∈ collectAll packages := by
  induction packages with
  | nil => cases hp
  | cons first rest ih =>
      rw [collectAll_cons, List.mem_append]
      rcases List.mem_cons.mp hp with rfl | hp
      · exact Or.inl h
      · exact Or.inr (ih hp)

/-- The entity stands in a package or in one below it. -/
inductive Holds (ref : Ref) : Package → Prop
  | direct {path : List String} {objects : List Ref} {packages : List Package} :
      ref ∈ objects → Holds ref (node path objects packages)
  | inside {path : List String} {objects : List Ref} {packages : List Package} {p : Package} :
      p ∈ packages → Holds ref p → Holds ref (node path objects packages)

theorem Holds.mem_collect {ref : Ref} {p : Package} (h : Holds ref p) : ref ∈ p.collect := by
  induction h with
  | direct hr =>
      rw [collect_node]
      exact List.mem_append_left _ hr
  | inside hp _ ih =>
      rw [collect_node]
      exact List.mem_append_right _ (mem_collectAll ih hp)

theorem collectAll_alter_perm {ref : Ref} {f : Package → Package}
    (hf : ∀ p, (f p).collect.Perm (ref :: p.collect)) (path : List String)
    (packages : List Package) :
    (collectAll (alter path f packages)).Perm (ref :: collectAll packages) := by
  induction packages with
  | nil =>
      rw [alter, collectAll_cons]
      exact (hf (empty path)).append_right _
  | cons p rest ih =>
      rw [alter]
      split
      · rw [collectAll_cons, collectAll_cons]
        exact (hf p).append_right _
      · rw [collectAll_cons, collectAll_cons]
        exact (ih.append_left _).trans List.perm_middle

/-- Placing an entity adds it to what is held, once. -/
theorem collect_place_perm (ref : Ref) (path : List String) (p : Package) :
    (place ref path p).collect.Perm (ref :: p.collect) := by
  induction path generalizing p with
  | nil =>
      obtain ⟨path, objects, packages⟩ := p
      rw [place, collect_node, collect_node, List.append_assoc]
      exact List.perm_middle
  | cons segment rest ih =>
      obtain ⟨path, objects, packages⟩ := p
      rw [place, collect_node, collect_node]
      exact ((collectAll_alter_perm ih _ packages).append_left _).trans List.perm_middle

/-! ## Placing many entities -/

/-- Place entities, each at its path. -/
def placeAll (placements : List (Ref × List String)) (p : Package) : Package :=
  placements.foldl (fun tree e => place e.1 e.2 tree) p

/-- The placements at a path and below it, with what remains of their paths. -/
def placedBelow (s : List String) (placements : List (Ref × List String)) :
    List (Ref × List String) :=
  (placements.filter fun e => s <+: e.2).map fun e => (e.1, e.2.drop s.length)

@[simp] theorem path_placeAll (placements : List (Ref × List String)) (p : Package) :
    (placeAll placements p).path = p.path := by
  induction placements generalizing p with
  | nil => rfl
  | cons e rest ih => exact (ih (place e.1 e.2 p)).trans (path_place e.1 e.2 p)

/-- What stands at a path are the entities that were placed there and below. -/
theorem atPath_placeAll (placements : List (Ref × List String)) (p : Package) (s : List String) :
    (placeAll placements p).atPath s = placeAll (placedBelow s placements) (p.atPath s) := by
  induction placements generalizing p with
  | nil => rfl
  | cons e rest ih =>
      obtain ⟨ref, path⟩ := e
      change (placeAll rest (place ref path p)).atPath s = _
      rw [ih]
      by_cases hs : s <+: path
      · obtain ⟨remaining, rfl⟩ := hs
        have hfirst : placedBelow s ((ref, s ++ remaining) :: rest) =
            (ref, remaining) :: placedBelow s rest := by
          simp [placedBelow]
        rw [hfirst, atPath, get?_place_append]
        rfl
      · have hfirst : placedBelow s ((ref, path) :: rest) = placedBelow s rest := by
          simp [placedBelow, hs]
        rw [hfirst, atPath, get?_place_of_not_isPrefix ref hs, path_place, atPath]

/-- There are packages at the beginnings of all paths that were used, and no others. -/
theorem isSome_get?_placeAll (placements : List (Ref × List String)) (p : Package)
    (s : List String) :
    ((placeAll placements p).get? s).isSome = true ↔
      (p.get? s).isSome = true ∨ ∃ e ∈ placements, s <+: e.2 := by
  induction placements generalizing p with
  | nil => simp [placeAll]
  | cons e rest ih =>
      change ((placeAll rest (place e.1 e.2 p)).get? s).isSome = true ↔ _
      rw [ih]
      simp only [List.mem_cons, exists_eq_or_imp]
      by_cases hs : s <+: e.2
      · obtain ⟨remaining, hr⟩ := hs
        rw [← hr, get?_place_append]
        simp
      · rw [get?_place_of_not_isPrefix e.1 hs]
        simp [hs]

theorem objects_placeAll (placements : List (Ref × List String)) (p : Package) :
    (placeAll placements p).objects =
      p.objects ++ (placements.filter fun e => e.2 = []).map Prod.fst := by
  induction placements generalizing p with
  | nil => exact (List.append_nil _).symm
  | cons e rest ih =>
      change (placeAll rest (place e.1 e.2 p)).objects = _
      rw [ih]
      obtain ⟨ref, path⟩ := e
      obtain ⟨own, objects, packages⟩ := p
      cases path with
      | nil => simp [place, Package.objects]
      | cons segment remaining => simp [place, Package.objects]

theorem collect_placeAll_perm (placements : List (Ref × List String)) (p : Package) :
    (placeAll placements p).collect.Perm (placements.map Prod.fst ++ p.collect) := by
  induction placements generalizing p with
  | nil => exact List.Perm.refl _
  | cons e rest ih =>
      change (placeAll rest (place e.1 e.2 p)).collect.Perm _
      exact (ih _).trans (((collect_place_perm e.1 e.2 p).append_left _).trans List.perm_middle)

end Package

/-! ## The tree of a diagram -/

/-- What two paths begin with, their common start begins with, and the other way round. -/
theorem isPrefix_commonStart_iff (s p q : List String) :
    s <+: commonStart p q ↔ s <+: p ∧ s <+: q := by
  induction p generalizing s q with
  | nil =>
      rw [commonStart.eq_2 [] q nofun]
      exact (and_iff_left_of_imp fun hs => List.prefix_nil.mp hs ▸ List.nil_prefix).symm
  | cons a p ih =>
      cases q with
      | nil =>
          rw [commonStart.eq_2 (a :: p) [] nofun]
          exact (and_iff_right_of_imp fun hs => List.prefix_nil.mp hs ▸ List.nil_prefix).symm
      | cons b q =>
          cases s with
          | nil => simp
          | cons c s =>
              by_cases hab : a = b
              · rw [commonStart, if_pos hab, hab, List.cons_prefix_cons, List.cons_prefix_cons,
                  List.cons_prefix_cons, ih, and_and_left]
              · rw [commonStart, if_neg hab, List.cons_prefix_cons, List.cons_prefix_cons]
                refine iff_of_false (fun hs => List.cons_ne_nil c s (List.prefix_nil.mp hs)) ?_
                rintro ⟨⟨rfl, -⟩, rfl, -⟩
                exact hab rfl

theorem isPrefix_foldl_commonStart_iff (others : List (List String)) (first s : List String) :
    s <+: others.foldl commonStart first ↔ ∀ p ∈ first :: others, s <+: p := by
  induction others generalizing first with
  | nil => simp
  | cons other rest ih => simp [ih, isPrefix_commonStart_iff, and_assoc]

namespace Diagram

/-- The packages of all declared entities begin with the common package, and with nothing that it
does not begin with itself. -/
theorem isPrefix_commonPackage_iff {d : Diagram} (h : d.declared ≠ []) (s : List String) :
    s <+: d.commonPackage ↔ ∀ e ∈ d.declared, s <+: e.2.package := by
  obtain ⟨e, rest, he⟩ := List.exists_cons_of_ne_nil h
  rw [commonPackage, he, List.map_cons]
  dsimp only
  rw [isPrefix_foldl_commonStart_iff, ← List.map_cons (f := fun e : Ref × Entity => e.2.package),
    List.forall_mem_map]

theorem commonPackage_isPrefix {d : Diagram} {e : Ref × Entity} (h : e ∈ d.declared) :
    d.commonPackage <+: e.2.package :=
  (isPrefix_commonPackage_iff (List.ne_nil_of_mem h) _).mp (List.prefix_refl _) e h

/-- The package of an entity less the path at which the tree of the diagram stands. -/
def relativePackage (d : Diagram) (e : Entity) : List String :=
  e.package.drop d.packageTree.path.length

/-- The declared entities with the paths at which the tree has them. -/
def placements (d : Diagram) : List (Ref × List String) :=
  d.declared.map fun e => (e.1, d.relativePackage e.2)

theorem packageTree_eq_foldl (d : Diagram) :
    d.packageTree = Package.placeAll
      (d.declared.map fun e => (e.1, e.2.package.drop d.commonPackage.length))
      (Package.empty d.commonPackage) := by
  rw [Package.placeAll, List.foldl_map]
  rfl

theorem path_packageTree (d : Diagram) : d.packageTree.path = d.commonPackage := by
  rw [packageTree_eq_foldl, Package.path_placeAll, Package.path_empty]

theorem packageTree_eq (d : Diagram) :
    d.packageTree = Package.placeAll d.placements (Package.empty d.commonPackage) := by
  simp only [placements, relativePackage, path_packageTree]
  exact packageTree_eq_foldl d

theorem package_eq_append {d : Diagram} {e : Ref × Entity} (h : e ∈ d.declared) :
    e.2.package = d.packageTree.path ++ d.relativePackage e.2 := by
  rw [relativePackage, path_packageTree]
  exact (List.prefix_iff_eq_append.mp (commonPackage_isPrefix h)).symm

theorem nodup_declared (d : Diagram) : (d.declared.map Prod.fst).Nodup := by
  have hrefs : d.registered.map Prod.fst =
      (List.range' 0 d.objects.values.length).map Ref.registered := by
    rw [registered, List.map_map, ← List.zipIdx_map_snd, List.map_map]
    rfl
  have hnodup : (d.registered.map Prod.fst).Nodup := by
    rw [hrefs]
    exact List.Nodup.map (fun _ _ => Ref.registered.inj) List.nodup_range'
  exact hnodup.sublist (List.filter_sublist.map Prod.fst)

/-- The package at a path of the tree holds what was placed there and below. -/
theorem eq_placeAll_of_get? {d : Diagram} {s : List String} {node : Package}
    (h : d.packageTree.get? s = some node) :
    node = Package.placeAll (Package.placedBelow s d.placements)
      (Package.empty (d.commonPackage ++ s)) := by
  have hat : d.packageTree.atPath s = node := by rw [Package.atPath, h, Option.getD_some]
  rw [← hat, packageTree_eq, Package.atPath_placeAll, Package.atPath_empty]

theorem map_fst_placedBelow (d : Diagram) (s : List String) :
    (Package.placedBelow s d.placements).map Prod.fst =
      (d.declared.filter fun e => s <+: d.relativePackage e.2).map Prod.fst := by
  simp only [Package.placedBelow, placements, List.filter_map, List.map_map]
  rfl

/-- What was placed at a path and not below it. -/
theorem placed_at (d : Diagram) (s : List String) :
    ((Package.placedBelow s d.placements).filter fun e => e.2 = []).map Prod.fst =
      (d.declared.filter fun e => d.relativePackage e.2 = s).map Prod.fst := by
  have hends (path : List String) : (path.drop s.length = [] ∧ s <+: path) ↔ path = s := by
    constructor
    · rintro ⟨hdrop, remaining, rfl⟩
      rw [List.drop_left] at hdrop
      rw [hdrop, List.append_nil]
    · rintro rfl
      exact ⟨List.drop_length, List.prefix_refl path⟩
  simp only [Package.placedBelow, placements, List.filter_map, List.map_map, List.filter_filter]
  simp only [Function.comp_def, ← Bool.decide_and, hends]

theorem isSome_get?_packageTree (d : Diagram) (s : List String) :
    (d.packageTree.get? s).isSome = true ↔
      s = [] ∨ ∃ e ∈ d.declared, s <+: d.relativePackage e.2 := by
  have hroot : ((Package.empty d.commonPackage).get? s).isSome = true ↔ s = [] := by
    by_cases hs : s = []
    · simp [hs]
    · simp [hs, Package.get?_empty]
  rw [packageTree_eq, Package.isSome_get?_placeAll, hroot]
  simp [placements]

theorem objects_of_get? {d : Diagram} {s : List String} {node : Package}
    (h : d.packageTree.get? s = some node) :
    node.objects = (d.declared.filter fun e => d.relativePackage e.2 = s).map Prod.fst := by
  rw [eq_placeAll_of_get? h, Package.objects_placeAll, placed_at]
  rfl

theorem collect_perm_of_get? {d : Diagram} {s : List String} {node : Package}
    (h : d.packageTree.get? s = some node) :
    node.collect.Perm ((d.declared.filter fun e => s <+: d.relativePackage e.2).map Prod.fst) := by
  rw [eq_placeAll_of_get? h, ← map_fst_placedBelow]
  have hperm := Package.collect_placeAll_perm (Package.placedBelow s d.placements)
    (Package.empty (d.commonPackage ++ s))
  have hempty : (Package.empty (d.commonPackage ++ s)).collect = [] := by
    rw [Package.empty, Package.collect_node, Package.collectAll, List.append_nil]
  rwa [hempty, List.append_nil] at hperm

theorem nodup_collect_of_get? {d : Diagram} {s : List String} {node : Package}
    (h : d.packageTree.get? s = some node) : node.collect.Nodup :=
  (collect_perm_of_get? h).nodup_iff.mpr
    (d.nodup_declared.sublist (List.filter_sublist.map Prod.fst))

theorem mem_collect_of_get? {d : Diagram} {s : List String} {node : Package}
    (h : d.packageTree.get? s = some node) (ref : Ref) :
    ref ∈ node.collect ↔ ∃ e, (ref, e) ∈ d.declared ∧ s <+: d.relativePackage e := by
  rw [(collect_perm_of_get? h).mem_iff]
  simp

theorem not_isStub_of_mem_declared {d : Diagram} {e : Ref × Entity} (h : e ∈ d.declared) :
    e.1.isStub = false := by
  obtain ⟨_, _, rfl⟩ := List.mem_map.mp (List.mem_filter.mp h).1
  rfl

theorem not_isPlaceholder_of_mem_declared {d : Diagram} {e : Ref × Entity} (h : e ∈ d.declared) :
    e.2.isPlaceholder = false := by
  simpa using (List.mem_filter.mp h).2

/-- The tree partitions the declared entities by package. Every one has its package below the root;
there is a package at a path exactly when the path is empty or begins the path of a declared entity;
the package holds itself the entities with this path, in the order of registration, and together
with those below it the entities whose paths begin so, each once. Neither stubs nor placeholders
are anywhere in the tree. -/
theorem packageTree_partition (d : Diagram) :
    (∀ e ∈ d.declared, e.2.package = d.packageTree.path ++ d.relativePackage e.2) ∧
    (∀ s, (d.packageTree.get? s).isSome = true ↔
      s = [] ∨ ∃ e ∈ d.declared, s <+: d.relativePackage e.2) ∧
    (∀ s node, d.packageTree.get? s = some node →
      node.path = d.packageTree.path ++ s ∧
      node.objects = (d.declared.filter fun e => d.relativePackage e.2 = s).map Prod.fst ∧
      node.collect.Nodup ∧
      ∀ ref, ref ∈ node.collect ↔ ∃ e, (ref, e) ∈ d.declared ∧ s <+: d.relativePackage e) ∧
    (∀ ref, Package.Holds ref d.packageTree →
      ref.isStub = false ∧ ∃ e, d.entity? ref = some e ∧ e.isPlaceholder = false) := by
  refine ⟨fun e he => package_eq_append he, d.isSome_get?_packageTree, fun s node h => ?node_at,
    fun ref h => ?held⟩
  case node_at =>
    exact ⟨Package.path_of_get? h, objects_of_get? h, nodup_collect_of_get? h,
      mem_collect_of_get? h⟩
  case held =>
    -- The root is the package at the empty path, so what the tree holds is declared.
    obtain ⟨e, he, _⟩ := (mem_collect_of_get? (d.packageTree.get?_nil) ref).mp h.mem_collect
    exact ⟨not_isStub_of_mem_declared he, e, entity?_of_mem_declared he,
      not_isPlaceholder_of_mem_declared he⟩

end Diagram

end ClassDiagram
