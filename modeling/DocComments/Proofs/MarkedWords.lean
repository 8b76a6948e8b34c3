/-
This file proves what the standard tag pattern finds.

The pattern asks for an `@`, for characters that are not white space, and for white space after
them. Its loop is greedy and what follows it refuses the characters that the loop takes, so it
never goes back: a match covers an `@`, the whole rest of its word, and the white space that ends
the word. Successive matches are therefore found by reading the text once, from left to right, and
remembering nothing but the first `@` of the word under way. That is how marked words are defined
here, and it is what makes them easy to follow through a text that is put together from pieces.
-/

import DocComments.Source.Parser
import Mathlib.Data.List.TakeWhile

namespace DocComments

/-! ### The standard tag pattern -/

/-- Every character but white space. -/
def CharSet.nonSpace : CharSet :=
  .complement (.property .whiteSpace)

theorem CharSet.contains_whiteSpace (c : Char) :
    (CharSet.property .whiteSpace).contains c = Text.isWhiteSpace c := rfl

theorem CharSet.contains_nonSpace (c : Char) :
    CharSet.nonSpace.contains c = !Text.isWhiteSpace c := rfl

theorem CharSet.contains_single {c other : Char} :
    (CharSet.single c).contains other = true ↔ other = c := by
  simp only [single, contains, Bool.and_eq_true, Nat.ble_eq]
  constructor
  · rintro ⟨least, most⟩
    exact Char.toNat_inj.mp (Nat.le_antisymm most least)
  · rintro rfl
    exact ⟨Nat.le_refl _, Nat.le_refl _⟩

namespace Plan

variable {chars : CharSet} {continuation : Continuation} {before : Option Char} {c : Char}
  {text : List Char} {position : Nat} {groups : List (Nat × Range)} {trail : List Nat}

theorem follow_set_of_mem (inside : chars.contains c = true) :
    (Plan.set chars).follow continuation ⟨before, c :: text, position, groups, trail⟩ =
      continuation ⟨some c, text, position + 1, groups, []⟩ := by
  simp only [follow, Cursor.consume?]
  rw [if_pos inside, Option.bind_some]

theorem follow_set_of_notMem (outside : chars.contains c ≠ true) :
    (Plan.set chars).follow continuation ⟨before, c :: text, position, groups, trail⟩ = none := by
  simp only [follow, Cursor.consume?]
  rw [if_neg outside, Option.bind_none]

theorem follow_sequence (first second : Plan) (cursor : Cursor) :
    (Plan.sequence first second).follow continuation cursor =
      first.follow (second.follow continuation) cursor := rfl

/-- A loop over a set takes all characters of the set if what comes after it refuses them: then
there is no way out of it before, whether it prefers another round or not. -/
theorem follow_loop_set {label : Nat} {greedy : Bool}
    (refuses : ∀ before c rest position groups trail, chars.contains c = true →
      continuation ⟨before, c :: rest, position, groups, trail⟩ = none)
    {taken rest : List Char} (inside : ∀ c ∈ taken, chars.contains c = true)
    (stops : ∀ c ∈ rest.head?, chars.contains c ≠ true) :
    ∃ last, (Plan.loop label greedy (.set chars)).follow continuation
        ⟨before, taken ++ rest, position, groups, []⟩ =
      continuation ⟨last, rest, position + taken.length, groups, [label]⟩ := by
  have round (before : Option Char) (text : List Char) (position : Nat) :
      (Plan.loop label greedy (.set chars)).follow continuation
          ⟨before, text, position, groups, []⟩ =
        let again := (Plan.set chars).follow
          (iterate (Plan.set chars).follow label greedy continuation text.length)
          ⟨before, text, position, groups, [label]⟩
        let out := continuation ⟨before, text, position, groups, [label]⟩
        if greedy then again.orElse fun _ => out else out.orElse fun _ => again := rfl
  induction taken generalizing before position with
  | nil =>
    refine ⟨before, ?_⟩
    have noRound : (Plan.set chars).follow
        (iterate (Plan.set chars).follow label greedy continuation rest.length)
        ⟨before, rest, position, groups, [label]⟩ = none := by
      cases rest with
      | nil => rfl
      | cons c rest => exact follow_set_of_notMem (stops c rfl)
    rw [List.nil_append, round, noRound]
    cases greedy with
    | true => rfl
    | false => simp
  | cons c taken inductionHypothesis =>
    obtain ⟨head, tail⟩ := List.forall_mem_cons.mp inside
    obtain ⟨last, reached⟩ := @inductionHypothesis (some c) (position + 1) tail
    refine ⟨last, ?_⟩
    rw [follow] at reached
    rw [List.cons_append, round, follow_set_of_mem head, List.length_cons, reached,
      refuses _ _ _ _ _ _ head, List.length_cons, Nat.add_assoc, Nat.add_comm 1]
    -- The way out of the loop before this character fails.
    cases greedy with
    | true => simp
    | false => rfl

end Plan

/-! ### Words -/

namespace Text

/-- A text without white space. -/
def IsWord (text : List Char) : Prop :=
  ∀ c ∈ text, isWhiteSpace c = false

/-- A text is a word, or begins with one that white space ends. -/
theorem isWord_or_split (text : List Char) :
    IsWord text ∨ ∃ word space rest, text = word ++ space :: rest ∧ IsWord word ∧
      isWhiteSpace space = true := by
  have whole := (List.takeWhile_append_dropWhile (p := fun c => !isWhiteSpace c) (l := text)).symm
  have word : IsWord (text.takeWhile fun c => !isWhiteSpace c) := fun c member => by
    simpa using List.mem_takeWhile_imp member
  cases ended : text.dropWhile fun c => !isWhiteSpace c with
  | nil =>
    rw [ended, List.append_nil] at whole
    rw [whole]
    exact .inl word
  | cons space rest =>
    have first := List.head?_dropWhile_not (fun c => !isWhiteSpace c) text
    rw [ended] at first
    rw [ended] at whole
    exact .inr ⟨_, space, rest, whole, word, by simpa using first⟩

theorem ne_at_of_isWhiteSpace {c : Char} (isSpace : isWhiteSpace c = true) : c ≠ '@' := by
  rintro rfl
  cases isSpace

end Text

/-! ### Matches at one place -/

namespace Pattern

/-- The pattern of tags in the standard settings: an `@`, a name, and white space. -/
def tagWord : Pattern :=
  { plan := .sequence (.set (.single '@'))
      (.sequence
        (.group 1 (.sequence .empty
          (.sequence (.set .nonSpace) (.loop 0 true (.set .nonSpace)))))
        (.set (.property .whiteSpace)))
    names := [(tagGroup, 1)] }

theorem read?_standard :
    Pattern.read? ParserConfig.standard.tagPattern.toList = some tagWord := rfl

variable {before : Option Char} {position : Nat}

theorem matchAt?_of_ne {c : Char} {rest : List Char} (differs : c ≠ '@') :
    tagWord.matchAt? before position (c :: rest) = none := by
  have outside : (CharSet.single '@').contains c ≠ true := fun inside =>
    differs (CharSet.contains_single.mp inside)
  rw [matchAt?, tagWord, Plan.follow, Plan.follow_set_of_notMem outside, Option.map_none]

/-- A match at an `@` is what the group of the name and the white space after it make of the
rest. -/
theorem matchAt?_at {rest : List Char} :
    tagWord.matchAt? before position ('@' :: rest) =
      ((Plan.set .nonSpace).follow
        ((Plan.loop 0 true (.set .nonSpace)).follow fun reached =>
          (Plan.set (.property .whiteSpace)).follow some (reached.close 1 (position + 1)))
        ⟨some '@', rest, position + 1, [], []⟩).map fun reached =>
          ⟨⟨position, reached.position⟩, reached.groups⟩ := by
  have isAt : (CharSet.single '@').contains '@' = true := CharSet.contains_single.mpr rfl
  rw [matchAt?, tagWord, Plan.follow_sequence, Plan.follow_set_of_mem isAt]
  rfl

theorem matchAt?_of_space {space : Char} {rest : List Char}
    (isSpace : Text.isWhiteSpace space = true) :
    tagWord.matchAt? before position ('@' :: space :: rest) = none := by
  rw [matchAt?_at, Plan.follow_set_of_notMem, Option.map_none]
  rw [CharSet.contains_nonSpace, isSpace]
  exact Bool.false_ne_true

/-- After an `@` and the first character of a word, all others follow up to what ends the word. -/
theorem follow_word {c : Char} {word rest : List Char} (isWord : Text.IsWord (c :: word))
    (stops : ∀ d ∈ rest.head?, Text.isWhiteSpace d = true) :
    ∃ last, tagWord.matchAt? before position ('@' :: c :: (word ++ rest)) =
      ((Plan.set (.property .whiteSpace)).follow some
        ⟨last, rest, position + 1 + (word.length + 1),
          [(1, ⟨position + 1, position + 1 + (word.length + 1)⟩)], [0]⟩).map fun reached =>
            ⟨⟨position, reached.position⟩, reached.groups⟩ := by
  have inside : ∀ d ∈ c :: word, CharSet.nonSpace.contains d = true := fun d member => by
    rw [CharSet.contains_nonSpace, isWord d member]
    rfl
  obtain ⟨head, tail⟩ := List.forall_mem_cons.mp inside
  obtain ⟨last, looped⟩ := @Plan.follow_loop_set .nonSpace
    (fun reached => (Plan.set (.property .whiteSpace)).follow some (reached.close 1 (position + 1)))
    (some c) (position + 1 + 1) [] 0 true
    (fun _ d _ _ _ _ inside => Plan.follow_set_of_notMem (by
      rw [CharSet.contains_whiteSpace]
      simpa [CharSet.contains_nonSpace] using inside))
    word rest tail (fun d member => by simp [CharSet.contains_nonSpace, stops d member])
  refine ⟨last, ?_⟩
  rw [matchAt?_at, Plan.follow_set_of_mem head, looped, Nat.add_assoc (position + 1) 1,
    Nat.add_comm 1]
  rfl

theorem matchAt?_of_isWord {word : List Char} (isWord : Text.IsWord word) :
    tagWord.matchAt? before position ('@' :: word) = none := by
  cases word with
  | nil => rfl
  | cons c word =>
    obtain ⟨last, made⟩ := @follow_word before position c word [] isWord nofun
    rw [List.append_nil] at made
    exact made

theorem matchAt?_of_word {word rest : List Char} {space : Char} (isWord : Text.IsWord word)
    (named : word ≠ []) (isSpace : Text.isWhiteSpace space = true) :
    tagWord.matchAt? before position ('@' :: (word ++ space :: rest)) =
      some ⟨⟨position, position + 1 + word.length + 1⟩,
        [(1, ⟨position + 1, position + 1 + word.length⟩)]⟩ := by
  obtain ⟨c, word, rfl⟩ := List.exists_cons_of_ne_nil named
  have stops : ∀ d ∈ (space :: rest).head?, Text.isWhiteSpace d = true := by
    rintro d ⟨⟩
    exact isSpace
  obtain ⟨last, made⟩ := follow_word isWord stops
  rw [List.cons_append, made,
    Plan.follow_set_of_mem ((CharSet.contains_whiteSpace space).trans isSpace)]
  rfl

end Pattern

/-! ### Marked words -/

/-- The marked words of a text from here on, with the place of its first character and the place of
the `@` from which on the word under way is marked, if it is. White space ends a word; an `@` alone
marks nothing. -/
def markedWords : Nat → Option Nat → List Char → List Marker
  | _, _, [] => []
  | position, none, c :: rest =>
    markedWords (position + 1) (if c = '@' then some position else none) rest
  | position, some start, c :: rest =>
    if Text.isWhiteSpace c then
      if position = start + 1 then
        markedWords (position + 1) none rest
      else
        ⟨⟨start, position + 1⟩, ⟨start + 1, position⟩⟩ :: markedWords (position + 1) none rest
    else
      markedWords (position + 1) (some start) rest

/-- A word that nothing ends is not found. -/
theorem markedWords_of_isWord {word : List Char} (isWord : Text.IsWord word) (position : Nat)
    (start : Option Nat) : markedWords position start word = [] := by
  induction word generalizing position start with
  | nil => rw [markedWords]
  | cons c word inductionHypothesis =>
    obtain ⟨head, tail⟩ := List.forall_mem_cons.mp isWord
    cases start with
    | none => exact inductionHypothesis tail _ _
    | some start =>
      rw [markedWords, head, if_neg Bool.false_ne_true]
      exact inductionHypothesis tail _ _

/-- A marked word goes on to the next white space. -/
theorem markedWords_of_word {word : List Char} (isWord : Text.IsWord word) {space : Char}
    (isSpace : Text.isWhiteSpace space = true) (position start : Nat) (rest : List Char) :
    markedWords position (some start) (word ++ space :: rest) =
      (if position + word.length = start + 1 then [] else
        [⟨⟨start, position + word.length + 1⟩, ⟨start + 1, position + word.length⟩⟩]) ++
      markedWords (position + word.length + 1) none rest := by
  induction word generalizing position with
  | nil =>
    rw [List.nil_append, markedWords, if_pos isSpace]
    simp only [List.length_nil, Nat.add_zero]
    by_cases alone : position = start + 1
    · rw [if_pos alone, if_pos alone, List.nil_append]
    · rw [if_neg alone, if_neg alone, List.singleton_append]
  | cons c word inductionHypothesis =>
    obtain ⟨head, tail⟩ := List.forall_mem_cons.mp isWord
    rw [List.cons_append, markedWords, head, if_neg Bool.false_ne_true, inductionHypothesis tail,
      List.length_cons, Nat.add_assoc position 1, Nat.add_comm 1]

namespace Pattern

/-- What a search from a place finds, as against the marked words from there on: it is the first of
them, and the others come after its end. -/
def FindsFirst (found : Option Match) (position : Nat) (text : List Char) : List Marker → Prop
  | [] => found = none
  | first :: others => found = some ⟨first.whole, [(1, first.name)]⟩ ∧
      position ≤ first.whole.start ∧ first.whole.start < first.whole.stop ∧
      first.whole.stop ≤ position + text.length ∧
      others = markedWords first.whole.stop none (text.drop (first.whole.stop - position))

theorem FindsFirst.cons {found : Option Match} {position : Nat} {text : List Char}
    {words : List Marker} (finds : FindsFirst found (position + 1) text words) (c : Char) :
    FindsFirst found position (c :: text) words := by
  cases words with
  | nil => exact finds
  | cons first others =>
    obtain ⟨found, later, nonempty, inside, rest⟩ := finds
    refine ⟨found, by omega, nonempty, by rw [List.length_cons]; omega, ?_⟩
    rw [rest, show first.whole.stop - position = first.whole.stop - (position + 1) + 1 by omega,
      List.drop_succ_cons]

theorem findsFirst_of_word (word : List Char) (space : Char) (rest : List Char)
    (position : Nat) :
    FindsFirst
      (some ⟨⟨position, position + 1 + word.length + 1⟩,
        [(1, ⟨position + 1, position + 1 + word.length⟩)]⟩)
      position ('@' :: (word ++ space :: rest))
      (⟨⟨position, position + 1 + word.length + 1⟩, ⟨position + 1, position + 1 + word.length⟩⟩ ::
        markedWords (position + 1 + word.length + 1) none rest) := by
  refine ⟨rfl, Nat.le_refl _, by simp only; omega, ?_, ?_⟩
  · simp only [List.length_cons, List.length_append]
    omega
  · have after : position + 1 + word.length + 1 - position = word.length + 1 + 1 := by omega
    rw [after, List.drop_succ_cons, ← List.drop_drop, List.drop_left]
    rfl

/-- The leftmost match is the first marked word. Where the search fails at an `@`, it goes on one
character later, while the marked word goes on to its end; but then it is not found either. -/
theorem findsFirst_searchFrom (before : Option Char) (position : Nat) (text : List Char) :
    FindsFirst (tagWord.searchFrom before position text) position text
      (markedWords position none text) := by
  induction text generalizing before position with
  | nil => rfl
  | cons c text inductionHypothesis =>
    have next := (inductionHypothesis (some c) (position + 1)).cons c
    by_cases isAt : c = '@'
    · subst isAt
      rw [searchFrom, markedWords, if_pos rfl]
      rcases Text.isWord_or_split text with isWord | ⟨word, space, rest, rfl, isWord, isSpace⟩
      · rw [markedWords_of_isWord isWord] at next
        rw [matchAt?_of_isWord isWord, markedWords_of_isWord isWord]
        exact next
      · rw [markedWords_of_word isWord isSpace]
        cases word with
        | nil =>
          rw [List.nil_append, markedWords, if_neg (Text.ne_at_of_isWhiteSpace isSpace)] at next
          rw [List.nil_append, matchAt?_of_space isSpace, List.length_nil, Nat.add_zero,
            if_pos rfl, List.nil_append]
          exact next
        | cons d word =>
          have named := List.cons_ne_nil d word
          rw [matchAt?_of_word isWord named isSpace, if_neg (by rw [List.length_cons]; omega),
            List.singleton_append]
          exact findsFirst_of_word _ space rest position
    · rw [searchFrom, matchAt?_of_ne isAt, markedWords, if_neg isAt]
      exact next

/-- The matches from a place on are the marked words from there on. -/
theorem matchesFrom_eq (text : List Char) {bound position : Nat} (last : Option Nat)
    (inside : position ≤ text.length) (enough : text.length < position + bound) :
    tagWord.matchesFrom text bound position last =
      (markedWords position none (text.drop position)).map fun marker =>
        ⟨marker.whole, [(1, marker.name)]⟩ := by
  induction bound generalizing position last with
  | zero => omega
  | succ bound inductionHypothesis =>
    have finds := findsFirst_searchFrom (text.take position).getLast? position
      (text.drop position)
    rw [matchesFrom, next?, search]
    cases words : markedWords position none (text.drop position) with
    | nil =>
      rw [words] at finds
      rw [finds]
      rfl
    | cons first others =>
      rw [words] at finds
      obtain ⟨found, later, nonempty, within, rest⟩ := finds
      rw [List.length_drop] at within
      rw [List.drop_drop, Nat.add_sub_cancel' (by omega)] at rest
      have notEmpty : (first.whole.start == first.whole.stop) = false := by
        simpa using Nat.ne_of_lt nonempty
      rw [found]
      simp only [Option.bind_eq_bind, Option.bind_some, notEmpty, Bool.false_and,
        Bool.false_eq_true, if_false]
      have tail := inductionHypothesis (some first.whole.stop)
        (show first.whole.stop ≤ text.length by omega) (by omega)
      rw [List.map_cons, rest, ← tail]
      rfl

/-- The standard tag pattern marks the marked words. -/
theorem markers_tagWord (text : List Char) :
    tagWord.markers.markers text = markedWords 0 none text := by
  rw [MarkerSearch.markers, markers, findAll,
    matchesFrom_eq text none (Nat.zero_le _) (by omega), List.drop_zero, List.map_map,
    List.filterMap_map]
  exact List.filterMap_some

end Pattern

/-! ### Marked words of pieces -/

/-- Moves a marker by so many characters. -/
def Marker.shift (count : Nat) (marker : Marker) : Marker :=
  ⟨⟨marker.whole.start + count, marker.whole.stop + count⟩,
    ⟨marker.name.start + count, marker.name.stop + count⟩⟩

theorem markedWords_shift (text : List Char) (position count : Nat) (start : Option Nat) :
    markedWords (position + count) (start.map (· + count)) text =
      (markedWords position start text).map (Marker.shift count) := by
  fun_induction markedWords position start text with
  | case1 => simp only [markedWords, List.map_nil]
  | case2 position c rest inductionHypothesis =>
    rw [← inductionHypothesis, Option.map_none, markedWords, Nat.add_right_comm]
    split
    · rfl
    · rfl
  | case3 start c rest isSpace inductionHypothesis =>
    rw [← inductionHypothesis, Option.map_some, markedWords, if_pos isSpace,
      if_pos (Nat.add_right_comm _ _ _), Nat.add_right_comm, Option.map_none]
  | case4 position start c rest isSpace named inductionHypothesis =>
    have stillNamed : position + count ≠ start + count + 1 := by omega
    rw [List.map_cons, ← inductionHypothesis, Option.map_some, markedWords, if_pos isSpace,
      if_neg stillNamed, Nat.add_right_comm position count 1, Nat.add_right_comm start count 1]
    rfl
  | case5 position start c rest inWord inductionHypothesis =>
    rw [← inductionHypothesis, Option.map_some, markedWords, if_neg inWord, Nat.add_right_comm]

theorem markedWords_zero_shift (text : List Char) (position : Nat) :
    markedWords position none text = (markedWords 0 none text).map (Marker.shift position) := by
  rw [← markedWords_shift, Nat.zero_add, Option.map_none]

/-- The place of the `@` from which on the last word of a text is marked, if it is. -/
def markAfter : Nat → Option Nat → List Char → Option Nat
  | _, start, [] => start
  | position, none, c :: rest =>
    markAfter (position + 1) (if c = '@' then some position else none) rest
  | position, some start, c :: rest =>
    markAfter (position + 1) (if Text.isWhiteSpace c then none else some start) rest

theorem add_length_cons (position : Nat) (c : Char) (rest : List Char) :
    position + (c :: rest).length = position + 1 + rest.length := by
  rw [List.length_cons, Nat.add_assoc, Nat.add_comm 1]

/-- A text is read piece by piece, and the last word of a piece goes on in the next one. -/
theorem markedWords_append (first second : List Char) (position : Nat) (start : Option Nat) :
    markedWords position start (first ++ second) =
      markedWords position start first ++
        markedWords (position + first.length) (markAfter position start first) second := by
  fun_induction markedWords position start first with
  | case1 position start =>
    rw [markAfter]
    rfl
  | case2 position c rest inductionHypothesis =>
    rw [List.cons_append, markedWords, inductionHypothesis, markAfter, add_length_cons]
  | case3 start c rest isSpace inductionHypothesis =>
    rw [List.cons_append, markedWords, if_pos isSpace, if_pos rfl, inductionHypothesis, markAfter,
      if_pos isSpace, add_length_cons]
  | case4 position start c rest isSpace named inductionHypothesis =>
    rw [List.cons_append, markedWords, if_pos isSpace, if_neg named, inductionHypothesis,
      markAfter, if_pos isSpace, add_length_cons, List.cons_append]
  | case5 position start c rest inWord inductionHypothesis =>
    rw [List.cons_append, markedWords, if_neg inWord, inductionHypothesis, markAfter,
      if_neg inWord, add_length_cons]

/-- White space ends a word, whichever it is. -/
theorem markedWords_space {space : Char} (isSpace : Text.isWhiteSpace space = true)
    (position : Nat) (start : Option Nat) (rest : List Char) :
    markedWords position start (space :: rest) =
      markedWords position start ['\n'] ++ markedWords position none (space :: rest) := by
  have noAt := Text.ne_at_of_isWhiteSpace isSpace
  have lineFeed : Text.isWhiteSpace '\n' = true := rfl
  cases start with
  | none => rfl
  | some start =>
    simp only [markedWords, if_pos isSpace, if_pos lineFeed, if_neg noAt]
    split
    · rfl
    · rfl

theorem markAfter_lineFeed (text : List Char) (position : Nat) (start : Option Nat) :
    markAfter position start (text ++ ['\n']) = none := by
  fun_induction markAfter position start text with
  | case1 position start =>
    cases start with
    | none => rfl
    | some => rfl
  | case2 position c rest inductionHypothesis => exact inductionHypothesis
  | case3 position start c rest inductionHypothesis => exact inductionHypothesis

/-- The marked words of a text that white space follows. -/
def wordsOf (text : List Char) : List Marker :=
  markedWords 0 none (text ++ ['\n'])

/-- Without white space after a text, its marked words are the same if none is under way at its
end. -/
theorem markedWords_eq_wordsOf {text rest : List Char}
    (ended : markAfter 0 none text = none ∨ rest.head?.any Text.isWhiteSpace = true) :
    markedWords 0 none (text ++ rest) =
      wordsOf text ++ markedWords text.length none rest := by
  rw [wordsOf, markedWords_append, markedWords_append text ['\n'], Nat.zero_add, List.append_assoc]
  refine congrArg _ ?_
  rcases ended with none | isSpace
  · rw [none]
    rfl
  · cases rest with
    | nil => cases isSpace
    | cons space rest => exact markedWords_space isSpace _ _ _

/-- Text without any `@` is passed over between words. -/
theorem markedWords_of_noAt {passed : List Char} (noAt : '@' ∉ passed) (position : Nat) :
    markedWords position none passed = [] ∧ markAfter position none passed = none := by
  induction passed generalizing position with
  | nil => exact ⟨rfl, rfl⟩
  | cons c passed inductionHypothesis =>
    obtain ⟨differs, tail⟩ := not_or.mp (mt List.mem_cons.mpr noAt)
    rw [markedWords, markAfter, if_neg (Ne.symm differs)]
    exact inductionHypothesis tail _

/-- A marked word starts before its end and ends inside the text. -/
theorem bounds_of_mem_markedWords {text : List Char} {position : Nat} {start : Option Nat}
    (earlier : ∀ place ∈ start, place < position) {marker : Marker}
    (member : marker ∈ markedWords position start text) :
    marker.whole.start < marker.name.stop ∧ marker.name.stop < position + text.length := by
  fun_induction markedWords position start text with
  | case1 => cases member
  | case2 position c rest inductionHypothesis =>
    rw [add_length_cons]
    refine inductionHypothesis (fun place inside => ?_) member
    split at inside
    · cases inside
      exact Nat.lt_succ_self _
    · cases inside
  | case3 start c rest isSpace inductionHypothesis =>
    rw [add_length_cons]
    exact inductionHypothesis nofun member
  | case4 position start c rest isSpace named inductionHypothesis =>
    rw [add_length_cons]
    rcases List.mem_cons.mp member with rfl | later
    · have before := earlier start rfl
      simp only
      omega
    · exact inductionHypothesis nofun later
  | case5 position start c rest inWord inductionHypothesis =>
    rw [add_length_cons]
    exact inductionHypothesis (fun place inside => Nat.lt_succ_of_lt (earlier place inside)) member

theorem bounds_of_mem_wordsOf {text : List Char} {marker : Marker}
    (member : marker ∈ wordsOf text) :
    marker.whole.start < marker.name.stop ∧ marker.name.stop ≤ text.length := by
  have noneEarlier : ∀ place ∈ (none : Option Nat), place < 0 := nofun
  obtain ⟨nonempty, inside⟩ := bounds_of_mem_markedWords noneEarlier member
  rw [List.length_append, List.length_singleton, Nat.zero_add] at inside
  exact ⟨nonempty, Nat.le_of_lt_succ inside⟩

end DocComments
