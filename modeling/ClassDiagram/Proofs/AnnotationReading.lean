import ClassDiagram.Proofs.Grammar
import Mathlib.Data.List.Basic

/-!
# Reading annotations

Which texts are annotations, what they say, and why the others are refused.
Reading goes word by word: behind a tolerated body one more word is read just
when the longer body is tolerated, and the draft then says what that body says
as a whole. So a body is read to its end or up to its first misfit, which is
what the error reports.
-/

namespace ClassDiagram.Annotation

/-! ## What a body says -/

/-- What a body says when it is looked at as a whole. -/
def describe (body : List String) : Draft where
  association :=
    { name := (labels (wordsOf body .a))[1]?.getD ""
      roleA := (labels (wordsOf body .a))[0]?.getD ""
      roleB := (labels (wordsOf body .b))[0]?.getD ""
      multiplicityA := (multiplicities (wordsOf body .a))[0]?.getD ""
      multiplicityB := (multiplicities (wordsOf body .b))[0]?.getD ""
      headA := ((arrows body).head?.map (headBefore ·.toList)).getD .none
      headB := ((arrows body).head?.map (headBehind ·.toList)).getD .none
      options := (optionKeys body).foldl (fun options key => options.insert key true) {} }
  arrow := (arrows body).head?

/-- Why a word does not fit behind the words before it. -/
def misfit (front : List String) (word : String) : AnnotationError :=
  if isArrow word then .multipleArrows ((arrows front).headD "") word
  else .unexpectedToken word (sideAt front)

theorem side_describe (body : List String) : (describe body).side = sideAt body := by
  cases h : arrows body with
  | nil => simp [describe, Draft.side, sideAt, h]
  | cons first rest => simp [describe, Draft.side, sideAt, h]

/-- A place is free just as long as there are not enough words for it. -/
theorem getD_eq_empty_iff {words : List String} (h : ∀ word ∈ words, word ≠ "") (i : Nat) :
    words[i]?.getD "" = "" ↔ words.length ≤ i := by
  constructor
  · intro he
    by_contra hlt
    rw [List.getElem?_eq_getElem (by omega)] at he
    exact h _ (List.getElem_mem _) he
  · intro hle
    rw [List.getElem?_eq_none hle, Option.getD_none]

theorem step_arrow {body : List String} (hb : Tolerated body) {word : String}
    (hc : classify word = .arrow) (ha : isArrow word = true) (hk : optionKey? word = none) :
    (describe body).step word =
      if Tolerated (body ++ [word]) then .ok (describe (body ++ [word]))
      else .error (misfit body word) := by
  have hiff := tolerated_append_arrow_iff body ha
  cases h : arrows body with
  | nil =>
      rw [if_pos (hiff.mpr ⟨hb, h⟩)]
      simp [Draft.step, hc, describe, arrows_append_arrow body ha, h, wordsOf_append_arrow h ha,
        optionKeys, hk]
  | cons first rest =>
      have hn : ¬ Tolerated (body ++ [word]) := by
        rw [hiff, h]
        simp
      rw [if_neg hn]
      simp [Draft.step, hc, describe, h, misfit, ha]

theorem addMultiplicity?_describe {body : List String} (hb : Tolerated body)
    (hne : ∀ word ∈ body, word ≠ "") {word : String} (ha : isArrow word = false)
    (hm : isMultiplicity word.toList = true) (hk : optionKey? word = none)
    (hl : isLabel word = false) :
    (describe body).addMultiplicity? word =
      if Tolerated (body ++ [word]) then some (describe (body ++ [word])).association
      else none := by
  have hempty : ∀ side, (multiplicities (wordsOf body side))[0]?.getD "" = "" ↔
      (multiplicities (wordsOf body side)).length ≤ 0 := fun side =>
    getD_eq_empty_iff (fun w hw => hne w (mem_of_mem_wordsOf (List.mem_filter.mp hw).1)) 0
  have hiff : Tolerated (body ++ [word]) ↔
      (multiplicities (wordsOf body (sideAt body))).length ≤ 0 := by
    have hdollar : word ≠ "$" := by
      rintro rfl
      exact absurd hm (by decide)
    rw [tolerated_append_word_iff body ha]
    simp [hm, hl, hb, hdollar]
  rw [Draft.addMultiplicity?, side_describe]
  cases hs : sideAt body with
  | a =>
      rw [hs] at hiff
      by_cases hf : (multiplicities (wordsOf body .a)).length ≤ 0
      · rw [if_pos (hiff.mpr hf)]
        simp [describe, hf, hs, ha, hm, hl, hk]
      · rw [if_neg (mt hiff.mp hf)]
        simp only [describe, hempty, hf, if_false]
  | b =>
      rw [hs] at hiff
      by_cases hf : (multiplicities (wordsOf body .b)).length ≤ 0
      · rw [if_pos (hiff.mpr hf)]
        simp [describe, hf, hs, ha, hm, hl, hk]
      · rw [if_neg (mt hiff.mp hf)]
        simp only [describe, hempty, hf, if_false]

theorem addLabel?_describe {body : List String} (hb : Tolerated body)
    (hne : ∀ word ∈ body, word ≠ "") {word : String} (ha : isArrow word = false)
    (hm : isMultiplicity word.toList = false) (hk : optionKey? word = none)
    (hl : isLabel word = true) :
    (describe body).addLabel? word =
      if Tolerated (body ++ [word]) then some (describe (body ++ [word])).association
      else none := by
  have hempty : ∀ side i, (labels (wordsOf body side))[i]?.getD "" = "" ↔
      (labels (wordsOf body side)).length ≤ i := fun side i =>
    getD_eq_empty_iff (fun w hw => hne w (mem_of_mem_wordsOf (List.mem_filter.mp hw).1)) i
  have hiff : Tolerated (body ++ [word]) ↔
      (labels (wordsOf body (sideAt body))).length < room (sideAt body) := by
    have hdollar : word ≠ "$" := by
      rintro rfl
      exact absurd hl (by decide)
    rw [tolerated_append_word_iff body ha]
    simp [hm, hl, hb, hdollar]
  rw [Draft.addLabel?, side_describe]
  cases hs : sideAt body with
  | a =>
      rw [hs] at hiff
      -- the first label is the role and the second one the name
      by_cases hrole : (labels (wordsOf body .a)).length ≤ 0
      · rw [if_pos (hiff.mpr (Nat.lt_of_le_of_lt hrole (by decide)))]
        have hnone := List.length_eq_zero_iff.mp (Nat.le_zero.mp hrole)
        simp [describe, hnone, hs, ha, hm, hl, hk]
      · by_cases hname : (labels (wordsOf body .a)).length ≤ 1
        · have hone : (labels (wordsOf body .a)).length = 1 := by omega
          rw [if_pos (hiff.mpr (Nat.lt_of_le_of_lt hname (by decide)))]
          simp only [describe, hempty, hrole, if_false, hname, if_true]
          simp [hone, hs, ha, hm, hl, hk]
        · rw [if_neg (fun ht => hname (Nat.le_of_lt_succ (hiff.mp ht)))]
          simp only [describe, hempty, hrole, hname, if_false]
  | b =>
      rw [hs] at hiff
      by_cases hf : (labels (wordsOf body .b)).length ≤ 0
      · rw [if_pos (hiff.mpr (Nat.lt_succ_of_le hf))]
        simp [describe, hf, hs, ha, hm, hl, hk]
      · rw [if_neg (fun ht => hf (Nat.le_of_lt_succ (hiff.mp ht)))]
        simp only [describe, hempty, hf, if_false]

theorem addOption?_describe {body : List String} (hb : Tolerated body) {word key : String}
    (ha : isArrow word = false) (hm : isMultiplicity word.toList = false)
    (hk : optionKey? word = some key) (hl : isLabel word = false) :
    (describe body).addOption? key =
      if Tolerated (body ++ [word]) then some (describe (body ++ [word])).association
      else none := by
  have hiff : Tolerated (body ++ [word]) ↔ word ≠ "$" := by
    rw [tolerated_append_word_iff body ha]
    simp [hm, hl, hb]
  rw [Draft.addOption?]
  by_cases hf : word = "$"
  · rw [if_pos ((eq_empty_iff_of_optionKey? hk).mpr hf), if_neg (fun ht => hiff.mp ht hf)]
  · rw [if_neg (mt (eq_empty_iff_of_optionKey? hk).mp hf), if_pos (hiff.mpr hf)]
    simp [describe, ha, hm, hl, hk]

theorem place_describe {body : List String} {word : String} (ha : isArrow word = false)
    {placed : Option Association}
    (h : placed = if Tolerated (body ++ [word]) then some (describe (body ++ [word])).association
      else none) :
    (match placed with
      | some association => Except.ok { describe body with association := association }
      | none => Except.error (AnnotationError.unexpectedToken word (describe body).side)) =
      if Tolerated (body ++ [word]) then .ok (describe (body ++ [word]))
      else .error (misfit body word) := by
  subst h
  by_cases ht : Tolerated (body ++ [word])
  · simp [ht, describe, ha]
  · simp [ht, misfit, ha, side_describe]

/-- One more word is read just when it is tolerated behind the words before it, and then the
draft says what the longer body says. -/
theorem step_describe {body : List String} (hb : Tolerated body)
    (hne : ∀ word ∈ body, word ≠ "") (word : String) :
    (describe body).step word =
      if Tolerated (body ++ [word]) then .ok (describe (body ++ [word]))
      else .error (misfit body word) := by
  rcases classify_cases word with ⟨hc, ha, _, hk, _⟩ | ⟨hc, ha, hm, hk, hl⟩ |
    ⟨key, hc, ha, hm, hk, hl⟩ | ⟨hc, ha, hm, hk, hl⟩
  · exact step_arrow hb hc ha hk
  · simp only [Draft.step, hc]
    exact place_describe ha (addMultiplicity?_describe hb hne ha hm hk hl)
  · simp only [Draft.step, hc]
    exact place_describe ha (addOption?_describe hb ha hm hk hl)
  · simp only [Draft.step, hc]
    exact place_describe ha (addLabel?_describe hb hne ha hm hk hl)

theorem steps_append (d : Draft) (front behind : List String) :
    d.steps (front ++ behind) = (do (← d.steps front).steps behind) := by
  induction front generalizing d with
  | nil => rfl
  | cons word rest ih =>
      rw [List.cons_append, Draft.steps, Draft.steps]
      cases d.step word with
      | error e => rfl
      | ok next => exact ih next

/-- A tolerated body is read to its end. -/
theorem steps_of_tolerated {body : List String} (h : Tolerated body)
    (hne : ∀ word ∈ body, word ≠ "") : Draft.steps {} body = .ok (describe body) := by
  induction body using List.reverseRecOn with
  | nil => rfl
  | append_singleton body word ih =>
      have hbody : ∀ word ∈ body, word ≠ "" := fun w hw => hne w (List.mem_append_left _ hw)
      rw [steps_append, ih h.of_append hbody]
      change (do (← (describe body).step word).steps []) = _
      rw [step_describe h.of_append hbody, if_pos h]
      rfl

/-- Reading stops at the first word that does not fit. -/
theorem steps_of_misfit {front : List String} {word : String} (h : Tolerated front)
    (hw : ¬ Tolerated (front ++ [word])) (hne : ∀ word ∈ front, word ≠ "")
    (behind : List String) :
    Draft.steps {} (front ++ word :: behind) = .error (misfit front word) := by
  rw [steps_append, steps_of_tolerated h hne]
  change (do (← (describe front).step word).steps behind) = _
  rw [step_describe h hne, if_neg hw]
  rfl

/-! ## Readings -/

/-- The head that a character beside a dash stands for, if there is one. -/
def headOf (c? : Option Char) : ArrowHead :=
  (c?.map .ofChar).getD .none

/-- Every word of an annotation is in its place. -/
structure Placed (body : List String) (target : String) (a : Annotation) : Prop where
  target : a.target = target
  headA : ∃ before behind, arrows body = [String.ofList (before ++ '-' :: behind)] ∧
    '-' ∉ before ∧ a.association.headA = headOf before.getLast?
  headB : ∃ before behind, arrows body = [String.ofList (before ++ '-' :: behind)] ∧
    '-' ∉ behind ∧ a.association.headB = headOf behind.head?
  multiplicityA : a.association.multiplicityA = (multiplicities (wordsOf body .a))[0]?.getD ""
  multiplicityB : a.association.multiplicityB = (multiplicities (wordsOf body .b))[0]?.getD ""
  roleA : a.association.roleA = (labels (wordsOf body .a))[0]?.getD ""
  name : a.association.name = (labels (wordsOf body .a))[1]?.getD ""
  roleB : a.association.roleB = (labels (wordsOf body .b))[0]?.getD ""
  options : ∀ key, a.association.options.get? key =
    if key ∈ optionKeys (wordsOf body .a ++ wordsOf body .b) then some true else none

theorem takeWhile_dash {before : List Char} (h : '-' ∉ before) (behind : List Char) :
    (before ++ '-' :: behind).takeWhile (· != '-') = before := by
  have hbefore : ∀ c ∈ before, (c != '-') = true := by
    intro c hc
    rw [bne_iff_ne]
    rintro rfl
    exact h hc
  simp [List.takeWhile_append_of_pos hbefore]

theorem headBefore_eq {before : List Char} (h : '-' ∉ before) (behind : List Char) :
    headBefore (before ++ '-' :: behind) = headOf before.getLast? := by
  rw [headBefore, takeWhile_dash h]
  cases before.getLast? <;> rfl

theorem headBehind_eq {behind : List Char} (h : '-' ∉ behind) (before : List Char) :
    headBehind (before ++ '-' :: behind) = headOf behind.head? := by
  have hrev : (before ++ '-' :: behind).reverse = behind.reverse ++ '-' :: before.reverse := by
    simp
  rw [headBehind, hrev, takeWhile_dash (by simpa using h), List.getLast?_reverse]
  cases behind.head? <;> rfl

theorem get?_switchedOn (keys : List String) (options : Table Bool) (key : String) :
    (keys.foldl (fun options key => options.insert key true) options).get? key =
      if key ∈ keys then some true else options.get? key := by
  induction keys generalizing options with
  | nil => simp
  | cons first rest ih =>
      rw [List.foldl_cons, ih, Table.get?_insert]
      by_cases hf : key = first
      · simp [hf]
      · simp [hf]

theorem placed_describe {body : List String} (h : Grammatical body) (target : String) :
    Placed body target ⟨target, (describe body).association⟩ := by
  obtain ⟨arrow, ha⟩ := List.length_eq_one_iff.mp h.hasArrow
  have harrow : isArrow arrow = true := (List.mem_filter.mp (ha ▸ List.mem_singleton_self arrow)).2
  have hdash := dash_mem_of_isArrow harrow
  refine ⟨rfl, ?_, ?_, rfl, rfl, rfl, rfl, rfl, ?_⟩
  · obtain ⟨before, behind, heq, hbefore⟩ := List.eq_append_cons_of_mem hdash
    refine ⟨before, behind, by rw [ha, ← heq, String.ofList_toList], hbefore, ?_⟩
    simp [describe, ha, heq, headBefore_eq hbefore]
  · obtain ⟨behind, before, heq, hbehind⟩ :=
      List.eq_append_cons_of_mem (List.mem_reverse.mpr hdash)
    have heq' : arrow.toList = before.reverse ++ '-' :: behind.reverse := by
      simpa using congrArg List.reverse heq
    have hbehind' : '-' ∉ behind.reverse := by simpa using hbehind
    refine ⟨before.reverse, behind.reverse, by rw [ha, ← heq', String.ofList_toList], hbehind', ?_⟩
    simp [describe, ha, heq', headBehind_eq hbehind']
  · intro key
    rw [optionKeys_sides h.arrows_ne_nil]
    exact get?_switchedOn _ _ _

/-! ## Refusals -/

/-- Why words are no annotation. Before the target the first word that does not fit behind the
words before it decides; it is a second arrow, or a word that its side cannot take. -/
inductive Refused : List String → AnnotationError → Prop
  | empty : Refused [] .empty
  | missingTarget {body : List String} {last : String} :
      isArrow last = true → Refused (body ++ [last]) (.missingTarget last)
  | missingArrow {body : List String} {target : String} :
      isArrow target = false → Tolerated body → arrows body = [] →
      Refused (body ++ [target]) .missingArrow
  | multipleArrows {front behind : List String} {first second target : String} :
      isArrow target = false → Tolerated front → arrows front = [first] → isArrow second = true →
      Refused (front ++ second :: behind ++ [target]) (.multipleArrows first second)
  | unexpectedToken {front behind : List String} {word target : String} :
      isArrow target = false → Tolerated front → isArrow word = false →
      ¬ Tolerated (front ++ [word]) →
      Refused (front ++ word :: behind ++ [target]) (.unexpectedToken word (sideAt front))

theorem ofTokens_append (body : List String) (target : String) :
    ofTokens (body ++ [target]) =
      if isArrow target then .error (.missingTarget target)
      else (do
        let draft ← Draft.steps {} body
        if draft.arrow.isSome then .ok ⟨target, draft.association⟩ else .error .missingArrow) := by
  simp [ofTokens]

theorem ofTokens_of_tolerated {body : List String} (h : Tolerated body)
    (hne : ∀ word ∈ body, word ≠ "") {target : String} (ht : isArrow target = false) :
    ofTokens (body ++ [target]) =
      if arrows body = [] then .error .missingArrow
      else .ok ⟨target, (describe body).association⟩ := by
  rw [ofTokens_append, if_neg (by simp [ht]), steps_of_tolerated h hne]
  change (if (describe body).arrow.isSome then _ else _) = _
  cases ha : arrows body with
  | nil => simp [describe, ha]
  | cons first rest => simp [describe, ha]

theorem ofTokens_of_grammatical {body : List String} (h : Grammatical body)
    (hne : ∀ word ∈ body, word ≠ "") {target : String} (ht : isArrow target = false) :
    ofTokens (body ++ [target]) = .ok ⟨target, (describe body).association⟩ := by
  rw [ofTokens_of_tolerated h.toTolerated hne ht, if_neg h.arrows_ne_nil]

theorem ofTokens_of_misfit {front : List String} {word : String} (h : Tolerated front)
    (hw : ¬ Tolerated (front ++ [word])) (hne : ∀ word ∈ front, word ≠ "")
    (behind : List String) {target : String} (ht : isArrow target = false) :
    ofTokens (front ++ word :: behind ++ [target]) = .error (misfit front word) := by
  rw [ofTokens_append, if_neg (by simp [ht]), steps_of_misfit h hw hne]
  rfl

theorem refused_misfit {front : List String} {word : String} (h : Tolerated front)
    (hw : ¬ Tolerated (front ++ [word])) (behind : List String) {target : String}
    (ht : isArrow target = false) :
    Refused (front ++ word :: behind ++ [target]) (misfit front word) := by
  cases ha : isArrow word with
  | false =>
      rw [misfit, ha]
      exact .unexpectedToken ht h ha hw
  | true =>
      have hsome : arrows front ≠ [] := fun hn =>
        hw ((tolerated_append_arrow_iff front ha).mpr ⟨h, hn⟩)
      obtain ⟨first, hfirst⟩ := List.length_eq_one_iff.mp (h.length_arrows hsome)
      rw [misfit, ha, hfirst]
      exact .multipleArrows ht h hfirst ha

/-- Words are an annotation with every word in its place, or they are refused. -/
theorem ofTokens_cases {words : List String} (hne : ∀ word ∈ words, word ≠ "") :
    (∃ body target, words = body ++ [target] ∧ isArrow target = false ∧ Grammatical body ∧
        ofTokens words = .ok ⟨target, (describe body).association⟩) ∨
      ∃ e, ofTokens words = .error e ∧ Refused words e := by
  rcases List.eq_nil_or_concat' words with rfl | ⟨body, target, rfl⟩
  · exact Or.inr ⟨_, rfl, .empty⟩
  · cases ht : isArrow target with
    | true =>
        refine Or.inr ⟨_, ?_, .missingTarget ht⟩
        rw [ofTokens_append, if_pos ht]
    | false =>
        have hbody : ∀ word ∈ body, word ≠ "" := fun w hw => hne w (List.mem_append_left _ hw)
        by_cases hb : Tolerated body
        · by_cases ha : arrows body = []
          · refine Or.inr ⟨_, ?_, .missingArrow ht hb ha⟩
            rw [ofTokens_of_tolerated hb hbody ht, if_pos ha]
          · have hg : Grammatical body := ⟨hb, hb.length_arrows ha⟩
            exact Or.inl ⟨body, target, rfl, ht, hg, ofTokens_of_grammatical hg hbody ht⟩
        · obtain ⟨front, word, behind, rfl, hfront, hword⟩ := exists_first_misfit hb
          have hfne : ∀ word ∈ front, word ≠ "" := fun w hw =>
            hbody w (List.mem_append_left _ hw)
          exact Or.inr ⟨_, ofTokens_of_misfit hfront hword hfne behind ht,
            refused_misfit hfront hword behind ht⟩

theorem ofTokens_of_refused {words : List String} (hne : ∀ word ∈ words, word ≠ "")
    {e : AnnotationError} (h : Refused words e) : ofTokens words = .error e := by
  cases h with
  | empty => rfl
  | missingTarget ht => rw [ofTokens_append, if_pos ht]
  | missingArrow ht hb ha =>
      have hbody := fun w hw => hne w (List.mem_append_left _ hw)
      rw [ofTokens_of_tolerated hb hbody ht, if_pos ha]
  | @multipleArrows front behind first second target ht hf hfirst hs =>
      have hw : ¬ Tolerated (front ++ [second]) := by
        rw [tolerated_append_arrow_iff front hs, hfirst]
        simp
      rw [ofTokens_of_misfit hf hw (fun w hw => hne w (by simp [hw])) behind ht, misfit, if_pos hs,
        hfirst]
      rfl
  | @unexpectedToken front behind word target ht hf ha hw =>
      rw [ofTokens_of_misfit hf hw (fun w hw => hne w (by simp [hw])) behind ht, misfit,
        if_neg (by simp [ha])]

theorem ne_empty_of_mem_words {text word : String} (h : word ∈ Text.words text) : word ≠ "" := by
  obtain ⟨piece, hp, rfl⟩ := List.mem_map.mp h
  have hpiece := (List.mem_filter.mp hp).2
  intro he
  rw [← String.toList_inj, String.toList_ofList] at he
  simp [he] at hpiece

/-- A text is an annotation just when its words are a body that keeps to the grammar and a target
that is no arrow; then every word is in its place, and otherwise the first misfit is reported. -/
theorem read_iff_grammatical (text : String) :
    ((∃ a, read text = .ok a) ↔ ∃ body target, Text.words text = body ++ [target] ∧
        isArrow target = false ∧ Grammatical body) ∧
      (∀ a, read text = .ok a → ∃ body target, Text.words text = body ++ [target] ∧
        Placed body target a) ∧
      ∀ e, read text = .error e ↔ Refused (Text.words text) e := by
  have hne : ∀ word ∈ Text.words text, word ≠ "" := fun _ => ne_empty_of_mem_words
  refine ⟨⟨?_, ?_⟩, ?_, fun e => ⟨?_, ofTokens_of_refused hne⟩⟩
  · rintro ⟨a, ha⟩
    rcases ofTokens_cases hne with ⟨body, target, hw, ht, hb, _⟩ | ⟨e, he, _⟩
    · exact ⟨body, target, hw, ht, hb⟩
    · exact absurd (ha.symm.trans he) (by simp)
  · rintro ⟨body, target, hw, ht, hb⟩
    have hbody : ∀ word ∈ body, word ≠ "" := fun w hm =>
      hne w (hw ▸ List.mem_append_left _ hm)
    refine ⟨⟨target, (describe body).association⟩, ?_⟩
    rw [read, hw, ofTokens_of_grammatical hb hbody ht]
  · intro a ha
    rcases ofTokens_cases hne with ⟨body, target, hw, _, hb, hread⟩ | ⟨e, he, _⟩
    · obtain rfl := Except.ok.inj (ha.symm.trans hread)
      exact ⟨body, target, hw, placed_describe hb target⟩
    · exact absurd (ha.symm.trans he) (by simp)
  · intro he
    rcases ofTokens_cases hne with ⟨_, _, _, _, _, hread⟩ | ⟨e', he', hr⟩
    · exact absurd (he.symm.trans hread) (by simp)
    · obtain rfl := Except.error.inj (he.symm.trans he')
      exact hr

example : read "1 owner o-> 0..* items Item" =
    .ok {
      target := "Item"
      association :=
        { multiplicityA := "1"
          roleA := "owner"
          headA := .aggregation
          headB := .directed
          multiplicityB := "0..*"
          roleB := "items" } } := by
  decide +kernel

example : read "role name extra - Target" = .error (.unexpectedToken "extra" .a) := by
  decide +kernel

end ClassDiagram.Annotation
