import REnvTools.Program.Glob

/-!
# What braces expand to

The expansion is the recursion over the groups of a pattern, cut off after
`MAX_BRACE_EXPANSIONS` results: neither test of the cap changes more than that
(`expandBracesInner_eq`). Over a pattern whose groups hold plain alternatives the recursion
gives one text for each choice of alternatives, in the order of the choices.
-/

set_option autoImplicit false

namespace REnvTools.Analysis

open REnvTools.Program

/-! ## The cap -/

/-- INTERNAL: a fold that adds to a list up to a limit adds the first elements of what it
would add without one. -/
theorem foldl_capped {α β : Type} {limit : ℕ} {step : List β → α → List β} {f : α → List β}
    (elements : List α)
    (hstep : ∀ a ∈ elements, ∀ results : List β, results.length ≤ limit →
      step results a = results ++ (f a).take (limit - results.length))
    (results : List β) (h : results.length ≤ limit) :
    elements.foldl step results =
      results ++ (elements.flatMap f).take (limit - results.length) := by
  induction elements generalizing results with
  | nil => simp
  | cons a elements ih =>
    have hfirst := hstep a List.mem_cons_self results h
    have hlength : (step results a).length ≤ limit := by
      rw [hfirst, List.length_append, List.length_take]
      omega
    have hrest := ih (fun b hb => hstep b (List.mem_cons_of_mem a hb)) _ hlength
    rw [List.foldl_cons, hrest, hfirst, List.flatMap_cons, List.take_append, List.append_assoc,
      List.length_append, List.length_take]
    congr 3
    omega

/-- INTERNAL: that the elements are elements changes nothing. -/
theorem flatMap_attach {α β : Type} (l : List α) (f : α → List β) :
    (l.attach.flatMap fun a => f a.1) = l.flatMap f := by
  conv_rhs => rw [← List.attach_map_subtype_val l, List.flatMap_map]

/-- The recursion of `expand_braces_inner` without the cap. -/
def expandUncapped (pattern : List Char) : List String :=
  match _h : splitBraces pattern with
  | none => [String.ofList pattern]
  | some (before, alternatives, suffix) =>
    (alternatives.splitOn ',').attach.flatMap fun alt =>
      expandUncapped (before ++ alt.1 ++ suffix)
termination_by pattern.count (Char.ofNat 125)
decreasing_by exact count_lt_of_splitBraces _h alt.2

/-- INTERNAL: a text without a group is its own expansion. -/
theorem expandUncapped_plain {pattern : List Char} (h : splitBraces pattern = none) :
    expandUncapped pattern = [String.ofList pattern] := by
  rw [expandUncapped]
  split
  · rfl
  · rename_i hsome
    rw [h] at hsome
    cases hsome

/-- INTERNAL: the expansion of a text with a group. -/
theorem expandUncapped_group {pattern before alternatives suffix : List Char}
    (h : splitBraces pattern = some (before, alternatives, suffix)) :
    expandUncapped pattern =
      (alternatives.splitOn ',').flatMap fun alt => expandUncapped (before ++ alt ++ suffix) := by
  rw [expandUncapped]
  split
  · rename_i hnone
    rw [h] at hnone
    cases hnone
  · rename_i hsome
    rw [h] at hsome
    cases hsome
    exact flatMap_attach _ fun alt => expandUncapped (before ++ alt ++ suffix)

/-- **The cap cuts off and does nothing else.** -/
theorem expandBracesInner_eq (pattern : List Char) (results : List String)
    (h : results.length ≤ maxBraceExpansions) :
    expandBracesInner pattern results =
      results ++ (expandUncapped pattern).take (maxBraceExpansions - results.length) := by
  induction hcount : pattern.count (Char.ofNat 125) using Nat.strongRecOn
    generalizing pattern results with
  | ind count ih =>
    rw [expandBracesInner]
    by_cases hfull : maxBraceExpansions ≤ results.length
    · rw [if_pos hfull, Nat.sub_eq_zero_of_le hfull, List.take_zero, List.append_nil]
    · rw [if_neg hfull]
      split
      · rename_i hplain
        rw [expandUncapped_plain hplain, List.take_of_length_le]
        rw [List.length_singleton]
        omega
      · rename_i before alternatives suffix hgroup
        rw [expandUncapped_group hgroup, ← flatMap_attach]
        refine foldl_capped _ ?_ results h
        rintro ⟨alt, halt⟩ - results hresults
        have hless := count_lt_of_splitBraces hgroup halt
        dsimp only
        split
        · rename_i hfull
          rw [Nat.sub_eq_zero_of_le hfull, List.take_zero, List.append_nil]
        · exact ih _ (hcount ▸ hless) _ results hresults rfl

/-! ## Patterns of groups -/

/-- A literal and the group after it. The alternatives may be empty. -/
structure BraceGroup where
  literal : List Char
  alternatives : List (List Char)
  literal_plain : Char.ofNat 123 ∉ literal
  alternatives_ne : alternatives ≠ []
  alternatives_plain : ∀ alt ∈ alternatives,
    Char.ofNat 123 ∉ alt ∧ Char.ofNat 125 ∉ alt ∧ ',' ∉ alt

/-- The text of the group, with its literal. -/
def BraceGroup.text (group : BraceGroup) : List Char :=
  group.literal ++
    Char.ofNat 123 :: ([','].intercalate group.alternatives ++ [Char.ofNat 125])

/-- Literals and groups in turn, with a literal at the end. -/
structure BracePattern where
  groups : List BraceGroup
  last : List Char
  last_plain : Char.ofNat 123 ∉ last

namespace BracePattern

/-- The text of the pattern. -/
def text (pattern : BracePattern) : List Char :=
  pattern.groups.flatMap BraceGroup.text ++ pattern.last

/-- The choice has the position of one alternative for each group. -/
def IsChoice (pattern : BracePattern) (choice : List ℕ) : Prop :=
  List.Forall₂ (fun i group => i < group.alternatives.length) choice pattern.groups

/-- What is picked by a choice, group by group. -/
def pickFrom : List BraceGroup → List ℕ → List Char
  | group :: groups, i :: choice =>
    group.literal ++ group.alternatives.getD i [] ++ pickFrom groups choice
  | [], _ | _ :: _, [] => []

/-- The text with the alternatives of a choice in place of the groups. -/
def pick (pattern : BracePattern) (choice : List ℕ) : String :=
  String.ofList (pickFrom pattern.groups choice ++ pattern.last)

end BracePattern

/-- All choices from some groups, the first group first. -/
def allChoices : List BraceGroup → List (List ℕ)
  | [] => [[]]
  | group :: groups =>
    (List.range group.alternatives.length).flatMap fun i => (allChoices groups).map (i :: ·)

/-- There is each choice. -/
theorem mem_allChoices {groups : List BraceGroup} {choice : List ℕ} :
    choice ∈ allChoices groups ↔
      List.Forall₂ (fun i (group : BraceGroup) => i < group.alternatives.length) choice groups := by
  induction groups generalizing choice with
  | nil => simp [allChoices]
  | cons group groups ih =>
    simp only [allChoices, List.mem_flatMap, List.mem_range, List.mem_map, ih]
    constructor
    · rintro ⟨i, hi, rest, hrest, rfl⟩
      exact .cons hi hrest
    · intro h
      cases h with
      | cons hi hrest => exact ⟨_, hi, _, hrest, rfl⟩

/-- They are in lexicographic order, each once. -/
theorem pairwise_allChoices (groups : List BraceGroup) :
    (allChoices groups).Pairwise (· < ·) := by
  induction groups with
  | nil => exact List.pairwise_singleton _ _
  | cons group groups ih =>
    rw [allChoices, List.pairwise_flatMap]
    constructor
    · intro i _
      exact ih.map _ fun _ _ hlt => List.cons_lt_cons_iff.mpr (.inr ⟨rfl, hlt⟩)
    · refine List.pairwise_lt_range.imp fun {i j} hlt => ?_
      intro choice hchoice choice' hchoice'
      obtain ⟨rest, -, rfl⟩ := List.mem_map.mp hchoice
      obtain ⟨rest', -, rfl⟩ := List.mem_map.mp hchoice'
      exact List.cons_lt_cons_iff.mpr (.inl hlt)

/-! ## The groups of a text -/

/-- INTERNAL: a text without the separator is not split. -/
theorem splitOnce_eq_none {separator : Char} {s : List Char} (h : separator ∉ s) :
    splitOnce separator s = none := by
  induction s with
  | nil => rfl
  | cons c s ih =>
    rw [List.mem_cons, not_or] at h
    rw [splitOnce, if_neg (Ne.symm h.1), ih h.2]
    rfl

/-- INTERNAL: the characters of the alternatives of a group. -/
theorem mem_intercalate_alternatives {c : Char} {alternatives : List (List Char)}
    (hcomma : c ≠ ',') (h : ∀ alt ∈ alternatives, c ∉ alt) :
    c ∉ [','].intercalate alternatives := by
  induction alternatives with
  | nil => simp
  | cons alt alternatives ih =>
    have hrest := ih fun alt halt => h alt (List.mem_cons_of_mem _ halt)
    have halt := h alt List.mem_cons_self
    cases alternatives with
    | nil => rwa [List.intercalate_singleton]
    | cons next alternatives =>
      rw [List.intercalate_cons_cons]
      simp [halt, hcomma, hrest]

/-- INTERNAL: the first group of a text is found, whatever literal is before it. -/
theorem splitBraces_group {before : List Char} (group : BraceGroup)
    (h : Char.ofNat 123 ∉ before) (rest : List Char) :
    splitBraces (before ++ (group.text ++ rest)) =
      some (before ++ group.literal, [','].intercalate group.alternatives, rest) := by
  have hclose : Char.ofNat 125 ∉ [','].intercalate group.alternatives :=
    mem_intercalate_alternatives (by decide) fun alt halt => (group.alternatives_plain alt halt).2.1
  have hopen : Char.ofNat 123 ∉ before ++ group.literal := by
    rw [List.mem_append, not_or]
    exact ⟨h, group.literal_plain⟩
  have htext : before ++ (group.text ++ rest) = (before ++ group.literal) ++ Char.ofNat 123 ::
      ([','].intercalate group.alternatives ++ Char.ofNat 125 :: rest) := by
    simp [BraceGroup.text]
  unfold splitBraces
  rw [htext, splitOnce_append hopen]
  dsimp only
  rw [splitOnce_append hclose]

/-- INTERNAL: the alternatives of a group. -/
theorem splitOn_alternatives (group : BraceGroup) :
    ([','].intercalate group.alternatives).splitOn ',' = group.alternatives :=
  List.splitOn_intercalate ',' (fun alt halt => (group.alternatives_plain alt halt).2.2)
    group.alternatives_ne

/-- INTERNAL: the elements of a list by their positions. -/
theorem eq_map_range_getD (l : List (List Char)) :
    l = (List.range l.length).map fun i => l.getD i [] := by
  apply List.ext_getElem
  · simp
  · intro i hi _
    simp [hi]

/-! ## The product -/

/-- The recursion picks one alternative after the other, in the order of the choices. -/
theorem expandUncapped_groups (groups : List BraceGroup) {before last : List Char}
    (hbefore : Char.ofNat 123 ∉ before) (hlast : Char.ofNat 123 ∉ last) :
    expandUncapped (before ++ (groups.flatMap BraceGroup.text ++ last)) =
      (allChoices groups).map fun choice =>
        String.ofList (before ++ (BracePattern.pickFrom groups choice ++ last)) := by
  induction groups generalizing before with
  | nil =>
    have hplain : splitBraces (before ++ last) = none := by
      unfold splitBraces
      rw [splitOnce_eq_none (by simp [hbefore, hlast])]
    simpa [allChoices, BracePattern.pickFrom] using expandUncapped_plain hplain
  | cons group groups ih =>
    have hgroup := splitBraces_group group hbefore (groups.flatMap BraceGroup.text ++ last)
    rw [List.flatMap_cons, List.append_assoc, expandUncapped_group hgroup, splitOn_alternatives,
      allChoices, List.map_flatMap]
    conv_lhs => rw [eq_map_range_getD group.alternatives, List.flatMap_map]
    apply List.flatMap_congr
    intro i hi
    have hmem : group.alternatives.getD i [] ∈ group.alternatives := by
      rw [List.getD_eq_getElem?_getD, List.getElem?_eq_getElem (List.mem_range.mp hi)]
      exact List.getElem_mem _
    have halt : Char.ofNat 123 ∉ before ++ group.literal ++ group.alternatives.getD i [] := by
      simp only [List.mem_append, not_or]
      exact ⟨⟨hbefore, group.literal_plain⟩, (group.alternatives_plain _ hmem).1⟩
    rw [List.append_assoc _ _ (groups.flatMap BraceGroup.text ++ last), ← List.append_assoc,
      ih halt, List.map_map]
    simp [BracePattern.pickFrom, String.append_assoc]

/-- INTERNAL: there is a comma between alternatives. -/
theorem comma_mem_alternatives_iff (group : BraceGroup) :
    ',' ∈ [','].intercalate group.alternatives ↔ 2 ≤ group.alternatives.length := by
  have hplain := fun alt halt => (group.alternatives_plain alt halt).2.2
  have hne := group.alternatives_ne
  cases halternatives : group.alternatives with
  | nil => exact absurd halternatives hne
  | cons alt alternatives =>
    cases alternatives with
    | nil =>
      rw [List.intercalate_singleton]
      simpa using hplain alt (by simp [halternatives])
    | cons next alternatives =>
      rw [List.intercalate_cons_cons]
      simp

/-- A pattern has a group with a choice. -/
theorem hasBracePattern_groups (groups : List BraceGroup) {last : List Char}
    (hlast : Char.ofNat 123 ∉ last) :
    hasBracePattern (groups.flatMap BraceGroup.text ++ last) = true ↔
      ∃ group ∈ groups, 2 ≤ group.alternatives.length := by
  induction groups with
  | nil =>
    have hplain : splitBraces last = none := by
      unfold splitBraces
      rw [splitOnce_eq_none hlast]
    rw [List.flatMap_nil, List.nil_append, hasBracePattern]
    split
    · simp
    · rename_i hsome
      rw [hplain] at hsome
      cases hsome
  | cons group groups ih =>
    have hbare : Char.ofNat 123 ∉ ([] : List Char) := List.not_mem_nil
    have hgroup := splitBraces_group group hbare (groups.flatMap BraceGroup.text ++ last)
    rw [List.nil_append, ← List.append_assoc, ← List.flatMap_cons] at hgroup
    rw [hasBracePattern]
    split
    · rename_i hnone
      rw [hgroup] at hnone
      cases hnone
    · rename_i hsome
      rw [hgroup] at hsome
      cases hsome
      rw [List.exists_mem_cons_iff, ← ih, ← comma_mem_alternatives_iff]
      split <;> simp [*]

/-- **Brace expansion is the capped product.** The results are the texts of the first 1024
choices, in the lexicographic order of all choices; and the pattern counts as one with braces
exactly if some group has two alternatives. -/
theorem expandBraces_product (pattern : BracePattern) :
    (∃ choices : List (List ℕ), choices.Pairwise (· < ·) ∧
      (∀ choice, choice ∈ choices ↔ pattern.IsChoice choice) ∧
      expandBraces (String.ofList pattern.text) = (choices.map pattern.pick).take 1024) ∧
    (hasBracePattern pattern.text = true ↔
      ∃ group ∈ pattern.groups, 2 ≤ group.alternatives.length) := by
  refine ⟨⟨allChoices pattern.groups, pairwise_allChoices pattern.groups,
    fun _ => mem_allChoices, ?_⟩, hasBracePattern_groups pattern.groups pattern.last_plain⟩
  have hbare : Char.ofNat 123 ∉ ([] : List Char) := List.not_mem_nil
  have hproduct := expandUncapped_groups pattern.groups hbare pattern.last_plain
  unfold expandBraces BracePattern.text
  rw [String.toList_ofList, expandBracesInner_eq _ _ (Nat.zero_le _), List.nil_append]
  rw [List.nil_append] at hproduct
  rw [hproduct]
  rfl

/-! ## Any text -/

/-- The recursive calls of `expand_braces_inner`: the text with an alternative in place of its
first group. -/
def CalledFrom (expanded pattern : List Char) : Prop :=
  ∃ before alternatives suffix alt,
    splitBraces pattern = some (before, alternatives, suffix) ∧
      alt ∈ alternatives.splitOn ',' ∧ expanded = before ++ alt ++ suffix

/-- The calls end: each has one `}` less than its caller, however long it is. -/
theorem wellFounded_calledFrom : WellFounded CalledFrom := by
  apply Subrelation.wf _ (measure fun pattern : List Char => pattern.count (Char.ofNat 125)).wf
  rintro _ pattern ⟨before, alternatives, suffix, alt, hgroup, halt, rfl⟩
  exact count_lt_of_splitBraces hgroup halt

/-- INTERNAL: there is always a result. -/
theorem expandUncapped_ne_nil (pattern : List Char) : expandUncapped pattern ≠ [] := by
  induction pattern using wellFounded_calledFrom.induction with
  | _ pattern ih =>
    cases hsplit : splitBraces pattern with
    | none =>
      rw [expandUncapped_plain hsplit]
      exact List.cons_ne_nil _ _
    | some parts =>
      obtain ⟨before, alternatives, suffix⟩ := parts
      rw [expandUncapped_group hsplit]
      intro hnil
      obtain ⟨alt, halt⟩ := List.exists_mem_of_ne_nil _ (List.splitOn_ne_nil ',' alternatives)
      have hnone := List.flatMap_eq_nil_iff.mp hnil alt halt
      exact ih _ ⟨before, alternatives, suffix, alt, hsplit, halt, rfl⟩ hnone

/-- **Brace expansion of any text** ends, with one result at least and 1024 at most: the first
ones of what the recursion gives without the cap. -/
theorem expandBraces_any (pattern : String) :
    Acc CalledFrom pattern.toList ∧
    (1 ≤ (expandBraces pattern).length ∧
      (expandBraces pattern).length ≤ maxBraceExpansions) ∧
    expandBraces pattern = (expandUncapped pattern.toList).take maxBraceExpansions := by
  have hresults : expandBraces pattern =
      (expandUncapped pattern.toList).take maxBraceExpansions := by
    unfold expandBraces
    rw [expandBracesInner_eq _ _ (Nat.zero_le _)]
    rfl
  refine ⟨wellFounded_calledFrom.apply _, ?_, hresults⟩
  have hpos := List.length_pos_iff.mpr (expandUncapped_ne_nil pattern.toList)
  rw [hresults, List.length_take]
  unfold maxBraceExpansions
  omega

end REnvTools.Analysis
