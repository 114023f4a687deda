import ClassDiagram.Settings.Reading
import ClassDiagram.Proofs.Lines
import ClassDiagram.Proofs.Table

/-!
# What a settings file can say

A file without settings gives the defaults: it may hold blanks, comments and empty lines, with a
byte order mark in front of them. Keys that mean nothing are passed over, in the document and in
its sections, and since no key stands twice in a document, the order of the sections counts for
nothing. The settings that some document holds are those with a limit of 64 bits, so that their
limit can be compared as a word.
-/

namespace ClassDiagram

open Text

namespace Toml

/-! ## Documents without entries -/

/-- A line of a document that says nothing: blanks, and perhaps a comment behind them. -/
def IsIdle (line : List Char) : Prop :=
  ∃ gap comment, line = gap ++ comment ∧ (∀ c ∈ gap, isGap c = true) ∧
    (comment = [] ∨ ∃ text, comment = '#' :: text ∧ ∀ c ∈ text, isText c = true)

theorem skipLines_gap {gap : List Char} (h : ∀ c ∈ gap, isGap c = true) (s : List Char) :
    skipLines false (gap ++ s) = skipLines false s := by
  induction gap with
  | nil => rfl
  | cons c rest ih =>
      have hc : isGap c = true := h c List.mem_cons_self
      have hfeed : c ≠ '\n' := by rintro rfl; cases hc
      have hreturn : ¬ (c = '\r' ∧ (rest ++ s).head? = some '\n') := by
        rintro ⟨rfl, -⟩; cases hc
      rw [List.cons_append, skipLines, if_neg hfeed, if_neg hreturn, if_neg (by decide), if_pos hc,
        ih fun d hd => h d (List.mem_cons_of_mem _ hd)]

theorem skipLines_text {text : List Char} (h : ∀ c ∈ text, isText c = true) (s : List Char) :
    skipLines true (text ++ s) = skipLines true s := by
  induction text with
  | nil => rfl
  | cons c rest ih =>
      have hc : isText c = true := h c List.mem_cons_self
      have hfeed : c ≠ '\n' := by rintro rfl; cases hc
      have hreturn : ¬ (c = '\r' ∧ (rest ++ s).head? = some '\n') := by
        rintro ⟨rfl, -⟩; cases hc
      rw [List.cons_append, skipLines, if_neg hfeed, if_neg hreturn, if_pos rfl, if_pos hc,
        ih fun d hd => h d (List.mem_cons_of_mem _ hd)]

/-- An idle line is skipped as a whole, with its line break if it has one. -/
theorem skipLines_idle {line : List Char} (h : IsIdle line) :
    skipLines false line = some [] ∧
      ∀ s, skipLines false (line ++ '\n' :: s) = skipLines false s := by
  obtain ⟨gap, comment, rfl, hgap, rfl | ⟨text, rfl, htext⟩⟩ := h
  · refine ⟨skipLines_gap hgap [], fun s => ?_⟩
    rw [List.append_nil, skipLines_gap hgap, skipLines, if_pos rfl]
  · have hopen (s : List Char) : skipLines false ('#' :: text ++ s) = skipLines true s := by
      rw [List.cons_append, skipLines, if_neg (by decide), if_neg (by simp), if_neg (by decide),
        if_neg (by decide), if_pos rfl, skipLines_text htext]
    refine ⟨?_, fun s => ?_⟩
    · rw [skipLines_gap hgap, ← List.append_nil ('#' :: text), hopen, skipLines]
    · rw [List.append_assoc, skipLines_gap hgap, hopen, skipLines, if_pos rfl]

theorem skipLines_unlines {ls : List (List Char)} (h : ∀ l ∈ ls, IsIdle l) :
    skipLines false (unlines ls) = some [] := by
  induction ls with
  | nil => rfl
  | cons l rest ih =>
      obtain ⟨hlast, hmore⟩ := skipLines_idle (h l List.mem_cons_self)
      by_cases hrest : rest = []
      · rw [hrest, unlines_singleton, hlast]
      · rw [unlines_cons l hrest, hmore, ih fun m hm => h m (List.mem_cons_of_mem _ hm)]

/-- What is skipped to its end does not begin with a byte order mark. -/
theorem dropByteOrderMark_of_skipLines {s : List Char} (h : skipLines false s = some []) :
    dropByteOrderMark s = s := by
  unfold dropByteOrderMark
  split
  · rw [skipLines, if_neg (by decide), if_neg (by simp), if_neg (by decide), if_neg (by decide),
      if_neg (by decide)] at h
    cases h
  · rfl

/-- When everything is skipped there is no line left to read. -/
theorem document?_of_skipLines {text : String}
    (h : skipLines false (dropByteOrderMark text.toList) = some []) : document? text = some [] := by
  have htrivia : skipTrivia (dropByteOrderMark text.toList) = some ((), []) := by
    rw [skipTrivia, h]
    rfl
  have hlines (n : Nat) : Line.readAll (n + 1) (dropByteOrderMark text.toList) = some ([], []) := by
    simp only [Line.readAll, bind, StateT.bind, htrivia]
    rfl
  simp [document?, hlines]

/-- A document of idle lines has no entries. -/
theorem document?_idle {mark : List Char} (hmark : mark = [] ∨ mark = ['\ufeff'])
    {ls : List (List Char)} (h : ∀ l ∈ ls, IsIdle l) :
    document? (String.ofList (mark ++ unlines ls)) = some [] := by
  have hskip := skipLines_unlines h
  apply document?_of_skipLines
  rw [String.toList_ofList]
  obtain rfl | rfl := hmark
  · rwa [List.nil_append, dropByteOrderMark_of_skipLines hskip]
  · exact hskip

/-! ## Keys of a document -/

/-- Whether every key stands there once. -/
def Entries.Distinct (entries : Entries) : Prop :=
  (entries.map Prod.fst).Nodup

/-- Whether a change leaves distinct keys distinct. -/
def Change.KeepsDistinct (change : Change) : Prop :=
  ∀ form (entries changed : Entries), entries.Distinct → change form entries = some changed →
    changed.Distinct

theorem Entries.Distinct.replace {entries : Entries} (h : entries.Distinct) (key : String)
    (value : Value) : Entries.Distinct (Toml.replace key value entries) := by
  have hkeys : (Toml.replace key value entries).map Prod.fst = entries.map Prod.fst := by
    rw [Toml.replace, List.map_map]
    refine List.map_congr_left fun e _ => ?_
    by_cases he : e.1 = key <;> simp [he]
  rwa [Entries.Distinct, hkeys]

theorem Entries.Distinct.append_singleton {entries : Entries} (h : entries.Distinct) {key : String}
    (hkey : entries.lookup key = none) (value : Value) :
    Entries.Distinct (entries ++ [(key, value)]) := by
  have hmem : key ∉ entries.map Prod.fst := by
    rw [← Table.isSome_lookup_iff, hkey]
    exact Bool.false_ne_true
  rw [Entries.Distinct, List.map_append, List.nodup_append]
  refine ⟨h, List.nodup_cons.mpr ⟨List.not_mem_nil, List.nodup_nil⟩, fun k hk k' hk' => ?_⟩
  obtain rfl := List.mem_singleton.mp hk'
  rintro rfl
  exact hmem hk

/-- A change further down keeps the keys on its way: it takes a table that is there, or adds one
under a new key. -/
theorem Change.KeepsDistinct.descend {change : Change} (h : change.KeepsDistinct) (dotted : Bool)
    (path : List String) : (Toml.descend dotted change path).KeepsDistinct := by
  cases path with
  | nil => exact h
  | cons key rest =>
      intro form entries changed hentries hchanged
      rw [Toml.descend] at hchanged
      cases hlookup : entries.lookup key with
      | none =>
          simp only [hlookup] at hchanged
          obtain ⟨inner, -, rfl⟩ := Option.map_eq_some_iff.mp hchanged
          exact hentries.append_singleton hlookup _
      | some value =>
          simp only [hlookup] at hchanged
          obtain ⟨entered, -, rfl⟩ := Option.map_eq_some_iff.mp hchanged
          exact hentries.replace key entered

theorem keepsDistinct_setValue (path : List String) (key : String) (value : Value) :
    (setValue path key value).KeepsDistinct := by
  refine Change.KeepsDistinct.descend (fun form entries changed hentries hchanged => ?_) true path
  split at hchanged
  · cases hchanged
  · split at hchanged
    · cases hchanged
    · next hkey =>
        cases hchanged
        exact hentries.append_singleton (Option.not_isSome_iff_eq_none.mp hkey) value

theorem keepsDistinct_openEntry (fresh : Value) (reopen? : Value → Option Value)
    (path : List String) (key : String) : (openEntry fresh reopen? path key).KeepsDistinct := by
  refine Change.KeepsDistinct.descend (fun form entries changed hentries hchanged => ?_) false path
  split at hchanged
  · next hkey =>
      cases hchanged
      exact hentries.append_singleton hkey fresh
  · obtain ⟨opened, -, rfl⟩ := Option.map_eq_some_iff.mp hchanged
    exact hentries.replace key opened

theorem Progress.distinct_step {p p' : Progress} (hp : p.entries.Distinct) {line : Line}
    (h : p.step line = some p') : p'.entries.Distinct := by
  cases line with
  | keyValue path key value =>
      obtain ⟨entries, hentries, h⟩ := Option.bind_eq_some_iff.mp h
      cases h
      exact (keepsDistinct_setValue path key value).descend false p.current _ _ _ hp hentries
  | header path key =>
      obtain ⟨entries, hentries, h⟩ := Option.bind_eq_some_iff.mp h
      cases h
      exact keepsDistinct_openEntry _ _ path key _ _ _ hp hentries
  | elementHeader path key =>
      obtain ⟨entries, hentries, h⟩ := Option.bind_eq_some_iff.mp h
      cases h
      exact keepsDistinct_openEntry _ _ path key _ _ _ hp hentries

theorem Progress.distinct_steps {lines : List Line} {p p' : Progress} (hp : p.entries.Distinct)
    (h : lines.foldlM Progress.step p = some p') : p'.entries.Distinct := by
  induction lines generalizing p with
  | nil =>
      cases h
      exact hp
  | cons line rest ih =>
      rw [List.foldlM_cons] at h
      obtain ⟨next, hnext, h⟩ := Option.bind_eq_some_iff.mp h
      exact ih (distinct_step hp hnext) h

/-- No key stands twice in a document. -/
theorem distinct_of_document? {text : String} {entries : Entries}
    (h : document? text = some entries) : entries.Distinct := by
  obtain ⟨⟨lines, rest⟩, -, h⟩ := Option.bind_eq_some_iff.mp h
  obtain ⟨p, hp, h⟩ := Option.bind_eq_some_iff.mp h
  cases h
  have hempty : Entries.Distinct [] := List.nodup_nil
  exact Progress.distinct_steps hempty hp

end Toml

namespace Settings

open Toml

/-- A file without settings gives the defaults. -/
theorem ofText?_idle {mark : List Char} (hmark : mark = [] ∨ mark = ['\ufeff'])
    {ls : List (List Char)} (h : ∀ l ∈ ls, IsIdle l) :
    ofText? (String.ofList (mark ++ unlines ls)) = some {} := by
  rw [ofText?, document?_idle hmark h]
  rfl

/-! ## Keys -/

/-- The entries under keys that mean something. -/
def known (names : List String) (entries : Entries) : Entries :=
  entries.filter fun e => names.contains e.1

theorem lookup_known {names : List String} {name : String} (h : name ∈ names) (entries : Entries) :
    (known names entries).lookup name = entries.lookup name := by
  induction entries with
  | nil => rfl
  | cons e rest ih =>
      rw [known] at ih
      rw [known, List.filter_cons, Table.lookup_cons_ite]
      by_cases hname : name = e.1
      · rw [if_pos (List.contains_iff_mem.mpr (hname ▸ h)), Table.lookup_cons_ite, if_pos hname,
          if_pos hname]
      · rw [if_neg hname]
        split
        · rw [Table.lookup_cons_ite, if_neg hname, ih]
        · rw [ih]

theorem othersSound_known (names : List String) (entries : Entries) :
    othersSound names (known names entries) = true := by
  rw [othersSound, List.all_eq_true]
  intro e he
  rw [(List.mem_filter.mp he).2, Bool.true_or]

/-- Other keys of a section count for nothing, so long as their values are sound. -/
theorem sectionValues?_known (names : List String) (form : TableForm) (entries : Entries) :
    sectionValues? names (some (.table form entries)) =
      if othersSound names entries then
        sectionValues? names (some (.table form (known names entries)))
      else none := by
  have hlookups : (names.map fun name => (known names entries).lookup name) =
      names.map fun name => entries.lookup name :=
    List.map_congr_left fun name hname => lookup_known hname entries
  rw [sectionValues?, sectionValues?, if_pos (othersSound_known names entries), hlookups]

/-- So do other keys of a document. -/
theorem ofEntries?_known (entries : Entries) :
    ofEntries? entries =
      if othersSound sectionNames entries then ofEntries? (known sectionNames entries)
      else none := by
  rw [ofEntries?, ofEntries?, if_pos (othersSound_known sectionNames entries),
    lookup_known (by decide), lookup_known (by decide), lookup_known (by decide)]

/-- The order of the keys counts for nothing. -/
theorem ofEntries?_perm {entries others : Entries} (h : entries.Distinct)
    (hperm : entries.Perm others) : ofEntries? entries = ofEntries? others := by
  have hothers : others.Distinct := (hperm.map Prod.fst).nodup_iff.mp h
  have hsound : othersSound sectionNames entries = othersSound sectionNames others :=
    hperm.all_eq
  have hlookup (name : String) : entries.lookup name = others.lookup name := by
    ext value
    rw [Table.lookup_eq_some_iff_mem h, Table.lookup_eq_some_iff_mem hothers, hperm.mem_iff]
  rw [ofEntries?, ofEntries?, hsound, hlookup, hlookup, hlookup]

/-- Documents with the same sections in another order have the same settings. -/
theorem ofText?_perm {text other : String} {entries others : Entries}
    (h : document? text = some entries) (hother : document? other = some others)
    (hperm : entries.Perm others) : ofText? text = ofText? other := by
  rw [ofText?, ofText?, h, hother]
  exact ofEntries?_perm (distinct_of_document? h) hperm

/-! ## Documents with all settings -/

/-- A section with values by name or by position. -/
def sectionOf (byPosition : Bool) (entries : Entries) : Value :=
  if byPosition then .array false (entries.map Prod.snd) else .table .headed entries

/-- Both forms of a section have the same values. -/
theorem sectionValues?_sectionOf (byPosition : Bool) {entries : Entries} (h : entries.Distinct) :
    sectionValues? (entries.map Prod.fst) (some (sectionOf byPosition entries)) =
      some (entries.map fun e => some e.2) := by
  cases byPosition with
  | true =>
      rw [sectionOf, if_pos rfl, sectionValues?, List.length_map]
      congr 1
      apply List.ext_getElem?
      intro i
      by_cases hi : i < entries.length <;> simp [hi]
  | false =>
      have hsound : othersSound (entries.map Prod.fst) entries = true :=
        List.all_eq_true.mpr fun e he => by
          rw [List.contains_iff_mem.mpr (List.mem_map_of_mem he), Bool.true_or]
      rw [sectionOf, if_neg Bool.false_ne_true, sectionValues?, if_pos hsound, List.map_map]
      congr 1
      exact List.map_congr_left fun e he => (Table.lookup_eq_some_iff_mem h).mpr he

theorem int64?_integer {n : Int} (h : fitsSigned 64 n = true) (default : Int) :
    int64? default (some (.integer (some n))) = some n := by
  rw [int64?, Option.filter_some, if_pos h]

theorem fitsSigned_of_int64? {default n : Int} {value? : Option Value}
    (hdefault : fitsSigned 64 default = true) (h : int64? default value? = some n) :
    fitsSigned 64 n = true := by
  cases value? with
  | none =>
      cases h
      exact hdefault
  | some value =>
      cases value with
      | integer n? => exact (Option.filter_eq_some_iff.mp h).2
      | _ => cases h

/-- The entries that say all settings of a section. -/
def associationEntries (a : AssociationSettings) : Entries :=
  [("merge", .boolean a.merge), ("max_roles", .integer (some a.maxRoles))]

def passesEntries (s : Settings) : Entries :=
  [("getters", .boolean s.getters), ("importance", .boolean s.importance)]

def docEntries (s : Settings) : Entries :=
  [("strict", .boolean s.strict)]

theorem readAssociation?_sectionOf (byPosition : Bool) {a : AssociationSettings}
    (h : fitsSigned 64 a.maxRoles = true) :
    readAssociation? (some (sectionOf byPosition (associationEntries a))) = some a := by
  have hvalues : sectionValues? ["merge", "max_roles"]
      (some (sectionOf byPosition (associationEntries a))) =
        some [some (.boolean a.merge), some (.integer (some a.maxRoles))] :=
    sectionValues?_sectionOf byPosition (by simp [Entries.Distinct, associationEntries])
  simp [readAssociation?, hvalues, bool?, int64?_integer h]

theorem readPasses?_sectionOf (byPosition : Bool) (s : Settings) :
    readPasses? (some (sectionOf byPosition (passesEntries s))) =
      some (s.getters, s.importance) := by
  have hvalues : sectionValues? ["getters", "importance"]
      (some (sectionOf byPosition (passesEntries s))) =
        some [some (.boolean s.getters), some (.boolean s.importance)] :=
    sectionValues?_sectionOf byPosition (by simp [Entries.Distinct, passesEntries])
  simp [readPasses?, hvalues, bool?]

theorem readDocSection?_sectionOf (byPosition : Bool) (s : Settings) :
    readDocSection? (some (sectionOf byPosition (docEntries s))) = some s.strict := by
  have hvalues : sectionValues? ["strict"] (some (sectionOf byPosition (docEntries s))) =
      some [some (.boolean s.strict)] :=
    sectionValues?_sectionOf byPosition (by simp [Entries.Distinct, docEntries])
  simp [readDocSection?, hvalues, bool?]

/-- The entries that say all settings, each section by name or by position. -/
def toEntries (byPosition : String → Bool) (s : Settings) : Entries :=
  [("association", sectionOf (byPosition "association") (associationEntries s.association)),
    ("passes", sectionOf (byPosition "passes") (passesEntries s)),
    ("doc", sectionOf (byPosition "doc") (docEntries s))]

/-- Settings are read back from the entries that say them. -/
theorem ofEntries?_toEntries {s : Settings} (h : fitsSigned 64 s.association.maxRoles = true)
    (byPosition : String → Bool) : ofEntries? (s.toEntries byPosition) = some s := by
  have hsound : othersSound sectionNames (s.toEntries byPosition) = true := rfl
  rw [ofEntries?, if_pos hsound]
  simp [toEntries, List.lookup_cons, readAssociation?_sectionOf _ h, readPasses?_sectionOf,
    readDocSection?_sectionOf]

theorem fitsSigned_of_readAssociation? {section? : Option Value} {a : AssociationSettings}
    (h : readAssociation? section? = some a) : fitsSigned 64 a.maxRoles = true := by
  obtain ⟨values, -, h⟩ := Option.bind_eq_some_iff.mp h
  match values, h with
  | [merge, maxRoles], h =>
      obtain ⟨m, -, h⟩ := Option.bind_eq_some_iff.mp h
      obtain ⟨limit, hlimit, h⟩ := Option.bind_eq_some_iff.mp h
      cases h
      exact fitsSigned_of_int64? (by decide) hlimit

/-- The settings that some document holds are those with a limit of 64 bits. -/
theorem exists_ofEntries?_iff (s : Settings) :
    (∃ entries, ofEntries? entries = some s) ↔ fitsSigned 64 s.association.maxRoles = true := by
  constructor
  · rintro ⟨entries, h⟩
    rw [ofEntries?] at h
    split at h
    · obtain ⟨a, ha, h⟩ := Option.bind_eq_some_iff.mp h
      obtain ⟨passes, -, h⟩ := Option.bind_eq_some_iff.mp h
      obtain ⟨strict, -, h⟩ := Option.bind_eq_some_iff.mp h
      cases h
      exact fitsSigned_of_readAssociation? ha
    · cases h
  · intro h
    exact ⟨s.toEntries fun _ => false, ofEntries?_toEntries h _⟩

/-- An integer of 64 bits is the value of a word. -/
theorem exists_toInt_of_fitsSigned {n : Int} (h : fitsSigned 64 n = true) :
    ∃ word : Int64, n = word.toInt := by
  rw [fitsSigned, Bool.and_eq_true, decide_eq_true_eq, decide_eq_true_eq] at h
  exact ⟨Int64.ofInt n, (Int64.toInt_ofInt_of_le h.1 h.2).symm⟩

/-- A limit of 64 bits is compared as a word just as it is compared as an integer. -/
theorem exists_wordAllowsRoles_eq {s : Settings} (h : fitsSigned 64 s.association.maxRoles = true) :
    ∃ limit : Int64, s.association.maxRoles = limit.toInt ∧ ∀ count : UInt64,
      AssociationSettings.wordAllowsRoles limit count = s.association.allowsRoles count.toNat := by
  obtain ⟨limit, hlimit⟩ := exists_toInt_of_fitsSigned h
  exact ⟨limit, hlimit, AssociationSettings.wordAllowsRoles_eq hlimit⟩

theorem fitsSigned_of_ofText? {text : String} {s : Settings} (h : ofText? text = some s) :
    fitsSigned 64 s.association.maxRoles = true := by
  obtain ⟨entries, -, hentries⟩ := Option.bind_eq_some_iff.mp h
  exact (exists_ofEntries?_iff s).mp ⟨entries, hentries⟩

end Settings

end ClassDiagram
