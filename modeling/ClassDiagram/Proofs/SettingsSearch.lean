import ClassDiagram.Settings.Search
import ClassDiagram.Proofs.SettingsReading

/-!
# Which settings hold

A path given as text leads where its names lead, as long as no file stands where a directory
should. Of the files in which settings may stand the first that exists decides alone, be it
readable or not; the others count for nothing. Only a path that the user names can be missing. All
settings that are found have a limit of 64 bits.
-/

namespace ClassDiagram

open Text

namespace FileTree

variable {t : FileTree}

/-- No file stands on the way to something else. -/
def WellFormed (t : FileTree) : Prop :=
  ∀ path bytes, t.nodes.lookup path = some (.file bytes) →
    ∀ n ∈ t.nodes, path <+: n.1 → n.1 = path

/-- A part of a path that names something: not empty, and not made to stay or to go up. -/
structure IsName (part : String) : Prop where
  ne_empty : part ≠ ""
  ne_point : part ≠ "."
  ne_points : part ≠ ".."
  no_stroke : '/' ∉ part.toList

theorem exists_mem_of_isSome_node? {path : List String} (hpath : path ≠ [])
    (h : (t.node? path).isSome = true) : ∃ n ∈ t.nodes, path <+: n.1 := by
  rw [node?] at h
  cases hlookup : t.nodes.lookup path with
  | some node =>
      obtain ⟨l₁, l₂, hnodes, -⟩ := List.lookup_eq_some_iff.mp hlookup
      exact ⟨(path, node), by simp [hnodes], List.prefix_refl path⟩
  | none =>
      simpa [hlookup, hpath] using h

/-- What leads to something is a directory. -/
theorem node?_of_append (h : t.WellFormed) {path rest : List String} (hrest : rest ≠ [])
    (hsome : (t.node? (path ++ rest)).isSome = true) : t.node? path = some .directory := by
  obtain ⟨n, hn, hprefix⟩ := exists_mem_of_isSome_node? (by simp [hrest]) hsome
  have hpath : path <+: n.1 := (List.prefix_append path rest).trans hprefix
  rw [node?]
  split
  · next node hlookup =>
      cases node with
      | directory => rfl
      | file bytes =>
          have hlength := (h path bytes hlookup n hn hpath ▸ hprefix).length_le
          have := List.length_pos_iff.mpr hrest
          rw [List.length_append] at hlength
          omega
  · rw [if_pos]
    rw [Bool.or_eq_true, List.any_eq_true]
    exact .inr ⟨n, hn, List.isPrefixOf_iff_prefix.mpr hpath⟩

/-- A step by a name leads from a directory down to what it holds, and nowhere else. -/
theorem step_below_eq_some_iff {base : List String} {name : String} (hname : IsName name)
    (place : Place) :
    t.step (.below base) name = some place ↔ t.node? base = some .directory ∧
      (t.node? (base ++ [name])).isSome = true ∧ place = .below (base ++ [name]) := by
  have hstay : ¬ (name = "" ∨ name = ".") := not_or.mpr ⟨hname.ne_empty, hname.ne_point⟩
  rw [step, Place.node?]
  split
  · next hbase =>
      rw [if_neg hstay, if_neg hname.ne_points, Place.child?, Option.filter_some, Place.node?,
        Option.ite_none_right_eq_some, hbase, Option.some_inj, eq_comm (a := place)]
      simp
  · next hbase =>
      simp only [reduceCtorEq, false_iff, not_and]
      exact fun hdirectory => absurd hdirectory hbase

/-- Going down name by name leads to what stands at the path. -/
theorem foldlM_step_below (h : t.WellFormed) {names : List String}
    (hnames : ∀ name ∈ names, IsName name) (base : List String) :
    (names.foldlM t.step (.below base)).bind (Place.node? t) = t.node? (base ++ names) := by
  induction names generalizing base with
  | nil => rw [List.append_nil]; rfl
  | cons name rest ih =>
      have hname : IsName name := hnames name List.mem_cons_self
      have hsplit : base ++ name :: rest = base ++ [name] ++ rest := by simp
      rw [List.foldlM_cons]
      cases hstep : t.step (.below base) name with
      | some place =>
          obtain ⟨-, -, rfl⟩ := (step_below_eq_some_iff hname place).mp hstep
          rw [hsplit, ← ih (fun n hn => hnames n (List.mem_cons_of_mem _ hn)) (base ++ [name])]
          rfl
      | none =>
          -- whatever stands further down would have let the step through
          cases hnode : t.node? (base ++ name :: rest) with
          | none => rfl
          | some node =>
              have hsome : (t.node? (base ++ name :: rest)).isSome = true := by rw [hnode]; rfl
              have hchild : (t.node? (base ++ [name])).isSome = true := by
                by_cases hrest : rest = []
                · rwa [hrest] at hsome
                · rw [node?_of_append h hrest (hsplit ▸ hsome)]; rfl
              have hbase := node?_of_append h (List.cons_ne_nil name rest) hsome
              rw [(step_below_eq_some_iff hname _).mpr ⟨hbase, hchild, rfl⟩] at hstep
              cases hstep

/-- The text of a path below the working directory. -/
def pathText (names : List String) : String :=
  String.ofList (['/'].intercalate (names.map String.toList))

theorem parts_pathText {names : List String} (hne : names ≠ [])
    (hnames : ∀ name ∈ names, IsName name) : parts (pathText names) = names := by
  have hpieces : pieces (· == '/') (['/'].intercalate (names.map String.toList)) =
      names.map String.toList := by
    apply pieces_intercalate '/' (by simp [hne])
    rintro l hl
    obtain ⟨name, hname, rfl⟩ := List.mem_map.mp hl
    exact (hnames name hname).no_stroke
  rw [parts, pathText, String.toList_ofList, hpieces, List.map_map]
  simp

theorem head?_pathText {names : List String} (hne : names ≠ [])
    (hnames : ∀ name ∈ names, IsName name) :
    ∃ c, (pathText names).toList.head? = some c ∧ c ≠ '/' := by
  obtain ⟨name, rest, rfl⟩ := List.exists_cons_of_ne_nil hne
  have hname : IsName name := hnames name List.mem_cons_self
  obtain ⟨c, more, hc⟩ :=
    List.exists_cons_of_ne_nil (mt String.toList_eq_nil_iff.mp hname.ne_empty)
  have hstroke : c ≠ '/' := by
    rintro rfl
    exact hname.no_stroke (hc ▸ List.mem_cons_self)
  refine ⟨c, ?_, hstroke⟩
  rw [pathText, String.toList_ofList, List.map_cons, hc]
  cases rest with
  | nil => simp
  | cons next others => rw [List.map_cons, List.intercalate_cons_cons]; simp

/-- What stands at a path given as text is what stands at the path of its names. -/
theorem find?_pathText (h : t.WellFormed) {names : List String} (hne : names ≠ [])
    (hnames : ∀ name ∈ names, IsName name)
    (hlength : (pathText names).utf8ByteSize ≤ maxPathBytes) :
    t.find? (pathText names) = t.node? names := by
  obtain ⟨c, hhead, hstroke⟩ := head?_pathText hne hnames
  have htext : ¬ (pathText names = "" ∨ maxPathBytes < (pathText names).utf8ByteSize) := by
    rintro (hempty | hlong)
    · rw [hempty] at hhead
      cases hhead
    · omega
  have hstart : (pathText names).toList.head? ≠ some '/' := by
    rw [hhead]
    exact fun heq => hstroke (Option.some_inj.mp heq)
  rw [find?, if_neg htext, if_neg hstart, parts_pathText hne hnames]
  exact foldlM_step_below h hnames []

end FileTree

/-- The paths at which settings may stand, in the order of their rank. -/
def Surroundings.candidates (s : Surroundings) : List (List String) :=
  [projectPath, s.userPath]

namespace Settings

variable {s : Surroundings}

/-- What stands at the first of the paths at which anything stands. -/
def IsFirst (t : FileTree) (paths : List (List String)) (node : FileNode) : Prop :=
  ∃ before path after, paths = before ++ path :: after ∧
    (∀ p ∈ before, t.node? p = none) ∧ t.node? path = some node

theorem load_none_eq (s : Surroundings) :
    load s none = ((s.candidates.findSome? s.files.node?).map ofNode).getD (.ok {}) := by
  rw [load, Surroundings.candidates, List.findSome?_cons, List.findSome?_cons]
  cases s.files.node? Surroundings.projectPath with
  | some node => rfl
  | none =>
      cases s.files.node? s.userPath with
      | some node => rfl
      | none => rfl

/-- The first file that exists decides alone. -/
theorem load_of_isFirst {node : FileNode} (h : IsFirst s.files s.candidates node) :
    load s none = ofNode node := by
  obtain ⟨before, path, after, hpaths, hbefore, hnode⟩ := h
  rw [load_none_eq, hpaths, List.findSome?_append, List.findSome?_eq_none_iff.mpr hbefore,
    List.findSome?_cons, hnode]
  rfl

theorem load_of_missing (h : ∀ path ∈ s.candidates, s.files.node? path = none) :
    load s none = .ok {} := by
  rw [load_none_eq, List.findSome?_eq_none_iff.mpr h]
  rfl

/-- Something stands at a first path, or nothing at any. -/
theorem exists_isFirst_or (s : Surroundings) :
    (∃ node, IsFirst s.files s.candidates node) ∨
      ∀ path ∈ s.candidates, s.files.node? path = none := by
  cases h : s.candidates.findSome? s.files.node? with
  | none => exact .inr (List.findSome?_eq_none_iff.mp h)
  | some node =>
      obtain ⟨before, path, after, hpaths, hnode, hbefore⟩ := List.findSome?_eq_some_iff.mp h
      exact .inl ⟨node, before, path, after, hpaths, hbefore, hnode⟩

/-- A project's settings hold whatever stands elsewhere. -/
theorem load_of_project {node : FileNode}
    (h : s.files.node? Surroundings.projectPath = some node) : load s none = ofNode node :=
  load_of_isFirst ⟨[], _, _, rfl, by simp, h⟩

theorem ofNode_toUTF8 {text : String} {settings : Settings} (h : ofText? text = some settings) :
    ofNode (.file text.toUTF8) = .ok settings := by
  have htext : String.fromUTF8? text.toUTF8 = some text := dif_pos text.isValidUTF8
  simp only [ofNode, htext, h]

/-- A project's file without settings is as good as none, save that the user's is not read. -/
theorem load_idle {mark : List Char} (hmark : mark = [] ∨ mark = ['\ufeff'])
    {ls : List (List Char)} (hls : ∀ l ∈ ls, Toml.IsIdle l)
    (h : s.files.node? Surroundings.projectPath =
      some (.file (String.ofList (mark ++ unlines ls)).toUTF8)) : load s none = .ok {} := by
  rw [load_of_project h, ofNode_toUTF8 (ofText?_idle hmark hls)]

theorem isName_of_mem_projectPath {name : String} (h : name ∈ Surroundings.projectPath) :
    FileTree.IsName name := by
  rw [Surroundings.projectPath, List.mem_cons, List.mem_singleton] at h
  obtain rfl | rfl := h
  · exact ⟨by decide, by decide, by decide, by decide⟩
  · exact ⟨by decide, by decide, by decide, by decide⟩

/-- To name the file of a project is no different from leaving it to the search. -/
theorem load_projectPath (hfiles : s.files.WellFormed) {node : FileNode}
    (h : s.files.node? Surroundings.projectPath = some node) :
    load s (some "classmap/config.toml") = load s none := by
  have hfind : s.files.find? (FileTree.pathText Surroundings.projectPath) = some node :=
    (FileTree.find?_pathText hfiles (by decide) (fun _ => isName_of_mem_projectPath)
      (by decide)).trans h
  have htext : FileTree.pathText Surroundings.projectPath = "classmap/config.toml" := by decide
  rw [load_of_project h, load, ← htext, hfind]

/-- Reading what stands at a path gives the settings in a file with text, or a failure that says
what is wrong with it. -/
theorem ofNode_cases (node : FileNode) :
    (∃ bytes text settings, node = .file bytes ∧ String.fromUTF8? bytes = some text ∧
      ofText? text = some settings ∧ ofNode node = .ok settings) ∨
    (∃ fault, ofNode node = .error (.read fault)) ∨ ofNode node = .error .malformedSettings := by
  cases node with
  | directory => exact .inr (.inl ⟨_, rfl⟩)
  | file bytes =>
      rw [ofNode]
      cases htext : String.fromUTF8? bytes with
      | none => exact .inr (.inl ⟨_, rfl⟩)
      | some text =>
          cases hsettings : ofText? text with
          | none => exact .inr (.inr (by simp only [hsettings]))
          | some settings =>
              exact .inl ⟨bytes, text, settings, rfl, htext, hsettings, by simp only [hsettings]⟩

/-- What is found is read. Otherwise a path that the user names is missing, and without one the
defaults hold. -/
theorem load_cases (s : Surroundings) (explicit : Option String) :
    (∃ node, load s explicit = ofNode node ∧
      explicit.elim (IsFirst s.files s.candidates node) (s.files.find? · = some node)) ∨
    (∃ path, explicit = some path ∧ s.files.find? path = none ∧
      load s explicit = .error (.missingSettings path)) ∨
    (explicit = none ∧ (∀ path ∈ s.candidates, s.files.node? path = none) ∧
      load s explicit = .ok {}) := by
  cases explicit with
  | some path =>
      rw [load]
      cases hfind : s.files.find? path with
      | some node => exact .inl ⟨node, rfl, hfind⟩
      | none => exact .inr (.inl ⟨path, rfl, hfind, rfl⟩)
  | none =>
      obtain ⟨node, hfirst⟩ | hmissing := exists_isFirst_or s
      · exact .inl ⟨node, load_of_isFirst hfirst, hfirst⟩
      · exact .inr (.inr ⟨rfl, hmissing, load_of_missing hmissing⟩)

/-- Only a path that the user names can be missing. -/
theorem load_eq_missingSettings_iff (s : Surroundings) (explicit : Option String) (path : String) :
    load s explicit = .error (.missingSettings path) ↔
      explicit = some path ∧ s.files.find? path = none := by
  constructor
  · intro h
    obtain ⟨node, hload, -⟩ | ⟨given, rfl, hfind, hload⟩ | ⟨-, -, hload⟩ := load_cases s explicit
    · obtain ⟨_, _, _, -, -, -, hnode⟩ | ⟨_, hnode⟩ | hnode := ofNode_cases node
      all_goals
        rw [hload, hnode] at h
        cases h
    · rw [hload] at h
      cases h
      exact ⟨rfl, hfind⟩
    · rw [hload] at h
      cases h
  · rintro ⟨rfl, hfind⟩
    rw [load, hfind]

/-- All settings that are found have a limit of 64 bits. -/
theorem fitsSigned_of_load {explicit : Option String} {settings : Settings}
    (h : load s explicit = .ok settings) :
    Toml.fitsSigned 64 settings.association.maxRoles = true := by
  obtain ⟨node, hload, -⟩ | ⟨_, -, -, hload⟩ | ⟨-, -, hload⟩ := load_cases s explicit
  · obtain ⟨_, text, found, -, -, hfound, hnode⟩ | ⟨_, hnode⟩ | hnode := ofNode_cases node
    all_goals
      rw [hload, hnode] at h
      cases h
    exact fitsSigned_of_ofText? hfound
  · rw [hload] at h
    cases h
  · rw [hload] at h
    cases h
    decide

/-- However settings are found, their limit can be compared as a word. -/
theorem exists_wordAllowsRoles_of_load {explicit : Option String} {settings : Settings}
    (h : load s explicit = .ok settings) :
    ∃ limit : Int64, settings.association.maxRoles = limit.toInt ∧ ∀ count : UInt64,
      AssociationSettings.wordAllowsRoles limit count =
        settings.association.allowsRoles count.toNat :=
  exists_wordAllowsRoles_eq (fitsSigned_of_load h)

end Settings

end ClassDiagram
