/-
This file proves where the standard delimiters of blocks are found.

The closing delimiter may stand anywhere in a line, and the leftmost match is the first place at
which its two characters stand side by side. The opening delimiter is searched behind white space
at the start of the line. The loop over the white space prefers to stop early, but what it stops
for is a slash, which is no white space, so it stops where the white space ends; and since the
pattern is tied to the start of the line, no later place matches. A line therefore opens a block
exactly if the delimiter follows the white space that the line begins with.
-/

import DocComments.Proofs.MarkedWords

namespace DocComments

/-! ### Literal texts -/

namespace Plan

/-- The plan of a text that stands for itself, by its first character and the others. -/
def literal : Char → List Char → Plan
  | c, [] => .set (.single c)
  | c, next :: others => .sequence (.set (.single c)) (literal next others)

variable {continuation : Continuation} {before : Option Char} {position : Nat}
  {groups : List (Nat × Range)} {trail : List Nat}

/-- A literal text is followed through itself. -/
theorem follow_literal_append (c : Char) (others rest : List Char) :
    ∃ last, (literal c others).follow continuation
        ⟨before, c :: (others ++ rest), position, groups, trail⟩ =
      continuation ⟨last, rest, position + (others.length + 1), groups, []⟩ := by
  have own (c : Char) : (CharSet.single c).contains c = true := CharSet.contains_single.mpr rfl
  induction others generalizing c before position trail with
  | nil =>
    refine ⟨some c, ?_⟩
    rw [literal, follow_set_of_mem (own c)]
    rfl
  | cons next others inductionHypothesis =>
    obtain ⟨last, reached⟩ := @inductionHypothesis (some c) (position + 1) [] next
    refine ⟨last, ?_⟩
    rw [literal, follow_sequence, List.cons_append, follow_set_of_mem (own c), reached,
      List.length_cons, Nat.add_assoc position, Nat.add_comm 1]

/-- A literal text is followed through nothing else. -/
theorem follow_literal_of_not_isPrefix {c : Char} {others text : List Char}
    (differs : ¬ c :: others <+: text) :
    (literal c others).follow continuation ⟨before, text, position, groups, trail⟩ = none := by
  induction others generalizing c text before position trail with
  | nil =>
    cases text with
    | nil => rfl
    | cons d text =>
      refine follow_set_of_notMem fun inside => differs ?_
      rw [CharSet.contains_single.mp inside]
      exact List.prefix_append [c] text
  | cons next others inductionHypothesis =>
    rw [literal, follow_sequence]
    cases text with
    | nil => rfl
    | cons d text =>
      by_cases same : d = c
      · subst same
        rw [follow_set_of_mem (CharSet.contains_single.mpr rfl)]
        exact inductionHypothesis fun start =>
          differs (List.cons_prefix_cons.mpr ⟨rfl, start⟩)
      · exact follow_set_of_notMem fun inside => same (CharSet.contains_single.mp inside)

end Plan

namespace Pattern

/-! ### The closing delimiter -/

/-- The closing delimiter of the standard settings. -/
def blockClosing : Pattern :=
  { plan := .literal '*' ['/']
    names := [] }

theorem read?_blockClosing :
    Pattern.read? ParserConfig.standard.closePattern.toList = some blockClosing := rfl

theorem matchAt?_blockClosing_of_not_isPrefix {text : List Char}
    (differs : ¬ ['*', '/'] <+: text) (before : Option Char) (position : Nat) :
    blockClosing.matchAt? before position text = none := by
  rw [matchAt?, blockClosing, Plan.follow_literal_of_not_isPrefix differs, Option.map_none]

/-- The leftmost match is the first place at which the two characters stand side by side. -/
theorem searchFrom_blockClosing (before : Option Char) (position : Nat) (text : List Char) :
    blockClosing.searchFrom before position text =
      (Text.splitFirstPair? '*' '/' text).map fun cut =>
        ⟨⟨position + cut.1.length, position + cut.1.length + 2⟩, []⟩ := by
  fun_induction Text.splitFirstPair? '*' '/' text generalizing before position with
  | case1 => exact matchAt?_blockClosing_of_not_isPrefix (by simp) before position
  | case2 c =>
    rw [searchFrom, matchAt?_blockClosing_of_not_isPrefix (by simp)]
    exact matchAt?_blockClosing_of_not_isPrefix (by simp) (some c) (position + 1)
  | case3 c d rest found =>
    obtain ⟨rfl, rfl⟩ : c = '*' ∧ d = '/' := by simpa using found
    obtain ⟨last, reached⟩ := @Plan.follow_literal_append some before position [] [] '*' ['/'] rest
    have matched : blockClosing.matchAt? before position ('*' :: '/' :: rest) =
        some ⟨⟨position, position + 2⟩, []⟩ := by
      rw [matchAt?, blockClosing]
      exact congrArg _ reached
    rw [searchFrom, matched]
    rfl
  | case4 c d rest differs inductionHypothesis =>
    have noStart : ¬ ['*', '/'] <+: c :: d :: rest := by
      intro start
      obtain ⟨rfl, tail⟩ := List.cons_prefix_cons.mp start
      obtain ⟨rfl, -⟩ := List.cons_prefix_cons.mp tail
      exact differs rfl
    rw [searchFrom, matchAt?_blockClosing_of_not_isPrefix noStart]
    simp only
    rw [inductionHypothesis, Option.map_map]
    refine congrArg (fun found => Option.map found _) (funext fun cut => ?_)
    simp only [Function.comp_apply, List.length_cons, Nat.add_assoc, Nat.add_comm 1]

theorem inLine_blockClosing (line : List Char) :
    blockClosing.inLine line =
      (Text.splitFirstPair? '*' '/' line).map fun cut =>
        ⟨cut.1.length, cut.1.length + 2⟩ := by
  rw [inLine, find?, search, List.take_zero, List.drop_zero, searchFrom_blockClosing,
    Option.map_map]
  refine congrArg (fun found => Option.map found _) (funext fun cut => ?_)
  simp only [Function.comp_apply, Nat.zero_add]

/-! ### The opening delimiter -/

/-- The opening delimiter of the standard settings, behind white space. -/
def blockOpening : Pattern :=
  { plan := .sequence (.look .textStart)
      (.sequence (.loop 0 false (.set (.property .whiteSpace))) (.literal '/' ['*', '*']))
    names := [] }

theorem read?_blockOpening :
    Pattern.read? (anchoredPattern ParserConfig.standard.openPattern).toList =
      some blockOpening := rfl

/-- Where the opening delimiter of a line ends: it must follow the white space that the line
begins with. -/
def openingStop? (line : List Char) : Option Nat :=
  if ['/', '*', '*'] <+: line.dropWhile Text.isWhiteSpace then
    some ((line.takeWhile Text.isWhiteSpace).length + 3)
  else
    none

theorem matchAt?_blockOpening (line : List Char) :
    blockOpening.matchAt? none 0 line =
      (openingStop? line).map fun stop => ⟨⟨0, stop⟩, []⟩ := by
  have refuses : ∀ before c rest position groups trail,
      (CharSet.property .whiteSpace).contains c = true →
      (Plan.literal '/' ['*', '*']).follow some ⟨before, c :: rest, position, groups, trail⟩ =
        none := by
    intro before c rest position groups trail isSpace
    refine Plan.follow_literal_of_not_isPrefix fun start => ?_
    obtain rfl := (List.cons_prefix_cons.mp start).1
    cases isSpace
  have spaces : ∀ c ∈ line.takeWhile Text.isWhiteSpace,
      (CharSet.property .whiteSpace).contains c = true := fun c member =>
    List.mem_takeWhile_imp member
  have stops : ∀ c ∈ (line.dropWhile Text.isWhiteSpace).head?,
      (CharSet.property .whiteSpace).contains c ≠ true := by
    intro c first isSpace
    have notSpace := List.head?_dropWhile_not Text.isWhiteSpace line
    rw [Option.mem_def.mp first] at notSpace
    rw [CharSet.contains_whiteSpace] at isSpace
    simp [isSpace] at notSpace
  obtain ⟨last, looped⟩ := @Plan.follow_loop_set _ _ none 0 [] 0 false refuses _ _ spaces stops
  rw [List.takeWhile_append_dropWhile] at looped
  have matched : blockOpening.matchAt? none 0 line =
      ((Plan.literal '/' ['*', '*']).follow some ⟨last, line.dropWhile Text.isWhiteSpace,
        0 + (line.takeWhile Text.isWhiteSpace).length, [], [0]⟩).map fun reached =>
          ⟨⟨0, reached.position⟩, reached.groups⟩ := congrArg _ looped
  rw [matched, openingStop?]
  split
  · rename_i start
    obtain ⟨rest, found⟩ := start
    rw [← found]
    obtain ⟨final, reached⟩ := @Plan.follow_literal_append some last
      (0 + (line.takeWhile Text.isWhiteSpace).length) [] [0] '/' ['*', '*'] rest
    refine (congrArg _ reached).trans ?_
    simp only [Option.map_some, Nat.zero_add, List.length_cons, List.length_nil]
  · rename_i noStart
    rw [Plan.follow_literal_of_not_isPrefix noStart, Option.map_none, Option.map_none]

/-- After the start of the line nothing matches. -/
theorem searchFrom_blockOpening_some (c : Char) (position : Nat) (text : List Char) :
    blockOpening.searchFrom (some c) position text = none := by
  have noMatch (c : Char) (position : Nat) (text : List Char) :
      blockOpening.matchAt? (some c) position text = none := rfl
  induction text generalizing c position with
  | nil => exact noMatch c position []
  | cons d text inductionHypothesis =>
    rw [searchFrom, noMatch]
    exact inductionHypothesis d (position + 1)

theorem inLine_blockOpening (line : List Char) :
    blockOpening.inLine line = (openingStop? line).map fun stop => ⟨0, stop⟩ := by
  have found : blockOpening.find? line = blockOpening.matchAt? none 0 line := by
    cases line with
    | nil => rfl
    | cons c line =>
      rw [find?, search, List.take_zero, List.drop_zero, List.getLast?_nil, searchFrom,
        searchFrom_blockOpening_some]
      cases blockOpening.matchAt? none 0 (c :: line) with
      | none => rfl
      | some => rfl
  rw [inLine, found, matchAt?_blockOpening, Option.map_map]
  rfl

end Pattern

end DocComments
