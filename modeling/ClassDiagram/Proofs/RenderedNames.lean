import ClassDiagram.Proofs.Signatures
import ClassDiagram.Proofs.Tokens

/-!
# The names in a rendered type

A container is rendered as a word with angle brackets around the text of its item. The brackets
separate names, so the runs of a rendered type are the words of its containers, from the outside
in, and then the runs of the text inside all of them. A type that was taken apart therefore
mentions the same names as its text does, and the text mentions the containers too.
-/

namespace ClassDiagram

namespace TypeExpr

/-- The words that stand for the containers around a type, from the outside in. -/
def containerWords : TypeExpr → List String
  | list item => "List" :: item.containerWords
  | set item => "Set" :: item.containerWords
  | optional item => "Optional" :: item.containerWords
  | primitive _ | named _ | void | source _ => []

/-- The names in a text, with all repetitions. -/
def sourceRuns (text : String) : List String :=
  (Text.tokens isDelimiter text.toList).map String.ofList

/-- The names inside all containers. -/
def leafNames : TypeExpr → List String
  | list item | set item | optional item => item.leafNames
  | primitive name | named name => [name]
  | void => ["void"]
  | source text => sourceRuns text

/-- A word that is found in a text as a whole. -/
def IsWord (word : String) : Prop :=
  word ≠ "" ∧ ∀ c ∈ word.toList, isDelimiter c = false

instance (word : String) : Decidable (IsWord word) :=
  decidable_of_iff (word ≠ "" ∧ word.toList.all (isDelimiter · = false) = true) (by simp [IsWord])

/-- The name inside all containers, if there is one, is a word. Source text can be anything. -/
def Legible : TypeExpr → Prop
  | list item | set item | optional item => item.Legible
  | primitive name | named name => IsWord name
  | void | source _ => True

theorem isWord_of_mem_sourceRuns {text word : String} (h : word ∈ sourceRuns text) :
    IsWord word := by
  obtain ⟨run, hrun, rfl⟩ := List.mem_map.mp h
  obtain ⟨hne, hsolid⟩ := Text.mem_tokens hrun
  refine ⟨?_, by rwa [String.toList_ofList]⟩
  intro hempty
  apply hne
  rw [← String.toList_ofList (l := run), hempty]
  rfl

theorem sourceRuns_of_isWord {word : String} (h : IsWord word) : sourceRuns word = [word] := by
  have hne : word.toList ≠ [] := by
    rw [Ne, String.toList_eq_nil_iff]
    exact h.1
  rw [sourceRuns, Text.tokens_of_forall hne h.2, List.map_singleton, String.ofList_toList]

/-- Angle brackets cut the text between them off from the word before it. -/
theorem sourceRuns_container {word : String} (h : IsWord word) (text : String) :
    sourceRuns (word ++ "<" ++ text ++ ">") = word :: sourceRuns text := by
  have hopen : isDelimiter '<' = true := by decide
  have hclose : ∀ c ∈ ['>'], isDelimiter c = true :=
    List.forall_mem_singleton.mpr (by decide)
  have hchars : (word ++ "<" ++ text ++ ">").toList =
      word.toList ++ '<' :: (text.toList ++ ['>']) := by
    simp [String.toList_append]
  rw [sourceRuns, hchars, Text.tokens_append_sep isDelimiter _ _ hopen,
    Text.tokens_append_of_sep _ hclose, List.map_append]
  change sourceRuns word ++ sourceRuns text = _
  rw [sourceRuns_of_isWord h]
  rfl

/-- Rendering writes the words of the containers around the innermost text. -/
theorem sourceRuns_render (type : TypeExpr) :
    sourceRuns type.render = type.containerWords ++ sourceRuns type.innermost := by
  have hcontainer {word : String} (hw : IsWord word) {item : TypeExpr}
      (ih : sourceRuns item.render = item.containerWords ++ sourceRuns item.innermost) :
      sourceRuns (word ++ "<" ++ item.render ++ ">") =
        word :: item.containerWords ++ sourceRuns item.innermost := by
    rw [sourceRuns_container hw, ih]
    rfl
  induction type with
  | list item ih => exact hcontainer (by decide : IsWord "List") ih
  | set item ih => exact hcontainer (by decide : IsWord "Set") ih
  | optional item ih => exact hcontainer (by decide : IsWord "Optional") ih
  | primitive | named | void | source => rfl

theorem sourceRuns_innermost {type : TypeExpr} (h : type.Legible) :
    sourceRuns type.innermost = type.leafNames := by
  induction type with
  | list item ih | set item ih | optional item ih => exact ih h
  | primitive name | named name => exact sourceRuns_of_isWord h
  | void => exact sourceRuns_of_isWord (by decide)
  | source text => rfl

/-- A name that is no word is not found in any text. -/
theorem legible_of_forall_isWord {type : TypeExpr} (h : ∀ name ∈ type.leafNames, IsWord name) :
    type.Legible := by
  induction type with
  | list item ih | set item ih | optional item ih => exact ih h
  | primitive name | named name => exact h name List.mem_cons_self
  | void | source _ => trivial

theorem subset_leafNames (type : TypeExpr) : type.names ⊆ type.leafNames := by
  induction type with
  | list item ih | set item ih | optional item ih => exact ih
  | named name => exact List.Subset.refl _
  | source text => exact fun _ h => List.mem_eraseDups.mp h
  | primitive _ | void => exact List.nil_subset _

/-- A type that is rendered and read as source text has the words of its containers, from the
outside in, and then the names inside them, each where it comes first; this needs the name inside
to be a word, and nothing else. So all names of the type are found again. -/
theorem names_source_render (type : TypeExpr) :
    ((source type.render).names = (type.containerWords ++ type.leafNames).eraseDups ↔
        type.Legible) ∧
      (type.Legible → ∀ name ∈ type.names, name ∈ (source type.render).names) := by
  have hnames : (source type.render).names =
      (type.containerWords ++ sourceRuns type.innermost).eraseDups := by
    rw [← sourceRuns_render]
    rfl
  have hread (h : type.Legible) :
      (source type.render).names = (type.containerWords ++ type.leafNames).eraseDups := by
    rw [hnames, sourceRuns_innermost h]
  refine ⟨⟨fun heq => ?_, hread⟩, fun h name hn => ?_⟩
  · apply legible_of_forall_isWord
    intro name hn
    have hfound : name ∈ (source type.render).names := by
      rw [heq, List.mem_eraseDups]
      exact List.mem_append_right _ hn
    exact isWord_of_mem_sourceRuns (List.mem_eraseDups.mp hfound)
  · rw [hread h, List.mem_eraseDups]
    exact List.mem_append_right _ (subset_leafNames type hn)

/-- A list of optional sets of a map whose text names a container again. -/
def catalog : TypeExpr :=
  .list (.optional (.set (.source " Map<Key, List[Price|Key]> ")))

/-- Sets that may be missing in a list, of a type that is known by its name. -/
def baskets : TypeExpr :=
  .list (.optional (.set (.named "Preis_2")))

/-- The word of the outer list hides the one in the text. A named type is found inside its
containers, but not if there is a blank in its name. -/
theorem names_source_render_catalog :
    catalog.Legible ∧
      (source catalog.render).names = ["List", "Optional", "Set", "Map", "Key", "Price"] ∧
      (∀ name ∈ catalog.names, name ∈ (source catalog.render).names) ∧
      baskets.Legible ∧
      (source baskets.render).names = ["List", "Optional", "Set", "Preis_2"] ∧
      (∀ name ∈ baskets.names, name ∈ (source baskets.render).names) ∧
      (source (list (named "Unit price")).render).names ≠
        ((list (named "Unit price")).containerWords ++
          (list (named "Unit price")).leafNames).eraseDups := by
  have hcatalog : catalog.Legible := trivial
  have hbaskets : baskets.Legible := (by decide : IsWord "Preis_2")
  refine ⟨hcatalog, ?_, (names_source_render catalog).2 hcatalog, hbaskets, ?_,
    (names_source_render baskets).2 hbaskets, ?_⟩
  · rw [(names_source_render catalog).1.mpr hcatalog]
    decide +kernel
  · rw [(names_source_render baskets).1.mpr hbaskets]
    decide +kernel
  · rw [Ne, (names_source_render _).1]
    change ¬ IsWord "Unit price"
    decide

end TypeExpr

end ClassDiagram
