/-
This file proves that the standard tag pattern cuts a text by its words.

The words of a text are its longest runs of characters that are not white space. A word stands for a
tag if white space follows it and it has an `@` that is not its last character. The tag starts at
the first `@` of the word, the rest of the word is its name, and its value begins behind the one
white space character that follows the word. Of the pattern and of the order in which matches are
tried, nothing is left in this description.

The two are compared word by word: a text is a word alone, or a word with white space and more text
behind it. A match never goes beyond the white space that ends its word, so what is found in a word
does not depend on the others.
-/

import DocComments.Proofs.FirstTokens
import DocComments.Proofs.TextSegments

namespace DocComments

/-! ### Words -/

namespace Text

/-- A word of a text: the place where it starts, and its characters. -/
@[ext]
structure PlacedWord where
  start : Nat
  chars : List Char
deriving DecidableEq, Repr

/-- The words of a text, where the first character of the text has this place. -/
def wordsFrom (position : Nat) : List Char → List PlacedWord
  | [] => []
  | c :: rest =>
    if isWhiteSpace c then
      wordsFrom (position + 1) rest
    else
      let chars := c :: rest.takeWhile fun d => !isWhiteSpace d
      ⟨position, chars⟩ ::
        wordsFrom (position + chars.length) (rest.dropWhile fun d => !isWhiteSpace d)
termination_by text => text.length
decreasing_by
  · exact Nat.lt_succ_self _
  · exact Nat.lt_succ_of_le (List.dropWhile_sublist _).length_le

/-- The words of a text. -/
def words (text : List Char) : List PlacedWord :=
  wordsFrom 0 text

namespace PlacedWord

/-- The place behind the last character. -/
def stop (word : PlacedWord) : Nat :=
  word.start + word.chars.length

/-- The place of the first `@`. -/
def sign (word : PlacedWord) : Nat :=
  word.start + word.chars.idxOf '@'

/-- What follows the first `@`. -/
def name (word : PlacedWord) : List Char :=
  word.chars.drop (word.chars.idxOf '@' + 1)

/-- The word is a longest run of characters of the text that are not white space, and stands where
it says. -/
def IsIn (text : List Char) (word : PlacedWord) : Prop :=
  ∃ before after, text = before ++ (word.chars ++ after) ∧ before.length = word.start ∧
    Ends (isWhiteSpace · = true) before ∧ IsRun (fun c => !isWhiteSpace c) word.chars after

/-- White space follows the word in the text, and the word has an `@` that is not its last
character. -/
def IsTag (text : List Char) (word : PlacedWord) : Prop :=
  (∃ space ∈ text[word.stop]?, isWhiteSpace space = true) ∧ '@' ∈ word.chars.dropLast

instance (text : List Char) (word : PlacedWord) : Decidable (word.IsTag text) :=
  inferInstanceAs (Decidable (_ ∧ _))

end PlacedWord

/-- Induction over a text word by word: it is a word alone, or a word with white space and more text
behind it. -/
@[elab_as_elim]
theorem word_induction {motive : List Char → Prop}
    (alone : ∀ word, IsWord word → motive word)
    (followed : ∀ word space rest, IsWord word → isWhiteSpace space = true → motive rest →
      motive (word ++ space :: rest))
    (text : List Char) : motive text := by
  induction size : text.length using Nat.strong_induction_on generalizing text with
  | h count inductionHypothesis =>
    rcases isWord_or_split text with isWord | ⟨word, space, rest, rfl, isWord, isSpace⟩
    · exact alone text isWord
    · have shorter : rest.length < count := by
        rw [← size, List.length_append, List.length_cons]
        omega
      exact followed word space rest isWord isSpace (inductionHypothesis _ shorter rest rfl)

/-- One word, or none if there are no characters. -/
def wordAt (position : Nat) (chars : List Char) : List PlacedWord :=
  if chars = [] then [] else [⟨position, chars⟩]

theorem mem_wordAt_iff {position : Nat} {chars : List Char} {word : PlacedWord} :
    word ∈ wordAt position chars ↔ chars ≠ [] ∧ word = ⟨position, chars⟩ := by
  rw [wordAt]
  split
  · rename_i empty
    simp [empty]
  · rename_i nonempty
    simp [nonempty]

/-- A word that white space ends, or the end of the text, is a longest run. -/
theorem isRun_of_isWord {word rest : List Char} (isWord : IsWord word) (nonempty : word ≠ [])
    (ended : Starts (isWhiteSpace · = true) rest) :
    IsRun (fun c => !isWhiteSpace c) word rest := by
  refine ⟨nonempty, fun c member => ?_, fun c isFirst => ?_⟩
  · simpa using isWord c member
  · simpa using ended c isFirst

/-- The words of a text are the first word, if it is not empty, and the words behind it. -/
theorem wordsFrom_append {word rest : List Char} (isWord : IsWord word)
    (ended : Starts (isWhiteSpace · = true) rest) (position : Nat) :
    wordsFrom position (word ++ rest) =
      wordAt position word ++ wordsFrom (position + word.length) rest := by
  cases word with
  | nil => rfl
  | cons c word =>
    have run := isRun_of_isWord isWord (List.cons_ne_nil c word) ended
    obtain ⟨head, tail⟩ := List.forall_mem_cons.mp isWord
    obtain ⟨-, inside⟩ := List.forall_mem_cons.mp run.inside
    rw [List.cons_append, wordsFrom, head, if_neg Bool.false_ne_true]
    simp only [takeWhile_append_of_starts inside run.ended,
      dropWhile_append_of_starts inside run.ended]
    rfl

theorem wordsFrom_of_isWord {word : List Char} (isWord : IsWord word) (position : Nat) :
    wordsFrom position word = wordAt position word := by
  have alone := wordsFrom_append isWord (starts_nil _) position
  rwa [List.append_nil, wordsFrom, List.append_nil] at alone

theorem wordsFrom_append_space {word : List Char} {space : Char} (isWord : IsWord word)
    (isSpace : isWhiteSpace space = true) (rest : List Char) (position : Nat) :
    wordsFrom position (word ++ space :: rest) =
      wordAt position word ++ wordsFrom (position + word.length + 1) rest := by
  have behind : wordsFrom (position + word.length) (space :: rest) =
      wordsFrom (position + word.length + 1) rest := by
    rw [wordsFrom, if_pos isSpace]
  rw [wordsFrom_append isWord (starts_cons_iff.mpr isSpace), behind]

theorem ends_append_cons_iff {kind : Char → Prop} {c : Char} (isKind : kind c)
    (front rest : List Char) : Ends kind (front ++ c :: rest) ↔ Ends kind rest := by
  rcases List.eq_nil_or_concat' rest with rfl | ⟨inner, last, rfl⟩
  · exact iff_of_true (ends_concat_iff.mpr isKind) (ends_nil kind)
  · rw [← List.cons_append, ← List.append_assoc, ends_concat_iff, ends_concat_iff]

theorem eq_nil_of_isWord_of_ends {word : List Char} (isWord : IsWord word)
    (ends : Ends (isWhiteSpace · = true) word) : word = [] := by
  rcases List.eq_nil_or_concat' word with rfl | ⟨front, last, rfl⟩
  · rfl
  · have isSpace := ends_concat_iff.mp ends
    rw [isWord last (List.mem_append_right _ List.mem_cons_self)] at isSpace
    cases isSpace

/-- A longest run that starts inside the first word of a text is this word. -/
theorem eq_of_isRun_of_prefix {own rest before chars after : List Char} (isOwn : IsWord own)
    (ended : Starts (isWhiteSpace · = true) rest)
    (parts : own ++ rest = before ++ (chars ++ after)) (within : before <+: own)
    (ends : Ends (isWhiteSpace · = true) before)
    (run : IsRun (fun c => !isWhiteSpace c) chars after) : before = [] ∧ own = chars := by
  obtain rfl : before = [] :=
    eq_nil_of_isWord_of_ends (fun c member => isOwn c (within.subset member)) ends
  refine ⟨rfl, ?_⟩
  have taken := congrArg (List.takeWhile fun c => !isWhiteSpace c) parts
  rwa [List.nil_append, takeWhile_append_of_starts run.inside run.ended,
    takeWhile_append_of_starts (fun c member => by simpa using isOwn c member)
      (fun c isFirst => by simpa using ended c isFirst)] at taken

/-- Which words are found from a place on: the longest runs of characters that are not white
space. -/
theorem mem_wordsFrom_iff {position : Nat} {text : List Char} {word : PlacedWord} :
    word ∈ wordsFrom position text ↔
      ∃ before after, text = before ++ (word.chars ++ after) ∧
        position + before.length = word.start ∧ Ends (isWhiteSpace · = true) before ∧
        IsRun (fun c => !isWhiteSpace c) word.chars after := by
  induction text using word_induction generalizing position with
  | alone own isOwn =>
    rw [wordsFrom_of_isWord isOwn, mem_wordAt_iff]
    constructor
    · rintro ⟨nonempty, rfl⟩
      exact ⟨[], [], (List.append_nil _).symm, rfl, ends_nil _,
        isRun_of_isWord isOwn nonempty (starts_nil _)⟩
    · rintro ⟨before, after, parts, start, ends, run⟩
      obtain ⟨rfl, rfl⟩ := eq_of_isRun_of_prefix isOwn (starts_nil _)
        ((List.append_nil own).trans parts) ⟨_, parts.symm⟩ ends run
      exact ⟨run.nonempty, PlacedWord.ext start.symm rfl⟩
  | followed own space rest isOwn isSpace inductionHypothesis =>
    rw [wordsFrom_append_space isOwn isSpace, List.mem_append, mem_wordAt_iff,
      inductionHypothesis]
    constructor
    · rintro (⟨nonempty, rfl⟩ | ⟨before, after, rfl, start, ends, run⟩)
      · exact ⟨[], space :: rest, rfl, rfl, ends_nil _,
          isRun_of_isWord isOwn nonempty (starts_cons_iff.mpr isSpace)⟩
      · refine ⟨own ++ space :: before, after, by simp, ?_, ?_, run⟩
        · rw [← start, List.length_append, List.length_cons]
          omega
        · exact (ends_append_cons_iff isSpace own before).mpr ends
    · rintro ⟨before, after, parts, start, ends, run⟩
      -- The word starts in the first word and is the same, or it starts behind the white space.
      rcases List.append_eq_append_iff.mp parts with ⟨gap, rfl, behind⟩ | ⟨tail, within, -⟩
      · cases gap with
        | nil =>
          have noSpace := starts_of_isRun run
          rw [List.nil_append] at behind
          rw [← behind, starts_cons_iff, isSpace] at noSpace
          cases noSpace
        | cons d gap =>
          obtain ⟨rfl, rfl⟩ := List.cons.inj behind
          refine .inr ⟨gap, after, rfl, ?_, (ends_append_cons_iff isSpace own gap).mp ends, run⟩
          rw [← start, List.length_append, List.length_cons]
          omega
      · obtain ⟨rfl, rfl⟩ := eq_of_isRun_of_prefix isOwn (starts_cons_iff.mpr isSpace) parts
          ⟨tail, within.symm⟩ ends run
        exact .inl ⟨run.nonempty, PlacedWord.ext start.symm rfl⟩

theorem mem_words_iff {text : List Char} {word : PlacedWord} :
    word ∈ words text ↔ word.IsIn text := by
  rw [words, mem_wordsFrom_iff]
  simp only [Nat.zero_add]
  rfl

/-- Words come in order, with white space between them. -/
theorem pairwise_wordsFrom (text : List Char) (position : Nat) :
    (wordsFrom position text).Pairwise fun earlier later => earlier.stop < later.start := by
  have single (position : Nat) (chars : List Char) :
      (wordAt position chars).Pairwise fun earlier later => earlier.stop < later.start := by
    rw [wordAt]
    split
    · exact .nil
    · exact List.pairwise_singleton _ _
  induction text using word_induction generalizing position with
  | alone own isOwn =>
    rw [wordsFrom_of_isWord isOwn]
    exact single position own
  | followed own space rest isOwn isSpace inductionHypothesis =>
    rw [wordsFrom_append_space isOwn isSpace]
    refine List.pairwise_append.mpr ⟨single position own, inductionHypothesis _, ?_⟩
    intro earlier isEarlier later isLater
    obtain ⟨-, rfl⟩ := mem_wordAt_iff.mp isEarlier
    obtain ⟨before, -, -, start, -⟩ := mem_wordsFrom_iff.mp isLater
    have stop : PlacedWord.stop ⟨position, own⟩ = position + own.length := rfl
    omega

end Text

/-! ### Words that are tags -/

open Text

variable {own rest text : List Char} {space : Char}

/-- The marker of a word that is a tag: from its first `@` on, with the white space behind it. -/
def Text.PlacedWord.marker (word : PlacedWord) : Marker :=
  ⟨⟨word.sign, word.stop + 1⟩, ⟨word.sign + 1, word.stop⟩⟩

/-- The first `@` of a word marks the rest of it, if there is any. -/
theorem markedWords_of_sign {front tail : List Char} (noSign : '@' ∉ front) (isTail : IsWord tail)
    (isSpace : isWhiteSpace space = true) (rest : List Char) (position : Nat) :
    markedWords position none (front ++ '@' :: tail ++ space :: rest) =
      (if tail = [] then [] else [PlacedWord.marker ⟨position, front ++ '@' :: tail⟩]) ++
        markedWords (position + (front ++ '@' :: tail).length + 1) none rest := by
  have isFirst : (front ++ '@' :: tail).idxOf '@' = front.length := by
    rw [List.idxOf_append_of_notMem noSign, List.idxOf_cons_self, Nat.add_zero]
  have length : position + (front ++ '@' :: tail).length =
      position + front.length + 1 + tail.length := by
    rw [List.length_append, List.length_cons]
    omega
  have alone : position + front.length + 1 + tail.length = position + front.length + 1 ↔
      tail = [] := by
    rw [Nat.add_eq_left, List.length_eq_zero_iff]
  obtain ⟨nothing, unmarked⟩ := markedWords_of_noAt noSign position
  rw [List.append_assoc, markedWords_append, nothing, unmarked, List.nil_append,
    List.cons_append, markedWords, if_pos rfl, markedWords_of_word isTail isSpace,
    PlacedWord.marker, PlacedWord.sign, PlacedWord.stop, isFirst, length]
  simp only [alone]

/-- What is marked in a word that white space follows. -/
theorem markedWords_append_space (isOwn : IsWord own) (isSpace : isWhiteSpace space = true)
    (rest : List Char) (position : Nat) :
    markedWords position none (own ++ space :: rest) =
      (if '@' ∈ own.dropLast then [PlacedWord.marker ⟨position, own⟩] else []) ++
        markedWords (position + own.length + 1) none rest := by
  by_cases signed : '@' ∈ own
  · obtain ⟨front, tail, rfl, noSign⟩ := List.eq_append_cons_of_mem signed
    have isTail : IsWord tail := fun c member =>
      isOwn c (List.mem_append_right _ (List.mem_cons_of_mem _ member))
    have last : '@' ∈ (front ++ '@' :: tail).dropLast ↔ ¬ tail = [] := by
      cases tail with
      | nil => simpa using noSign
      | cons c tail => simp
    rw [markedWords_of_sign noSign isTail isSpace]
    simp only [last, ite_not]
  · obtain ⟨nothing, unmarked⟩ := markedWords_of_noAt signed position
    rw [markedWords_append, nothing, unmarked, markedWords,
      if_neg (ne_at_of_isWhiteSpace isSpace), if_neg (mt List.mem_of_mem_dropLast signed)]

/-- Only white space behind a word decides whether an `@` in it makes it a tag. -/
theorem isTag_iff_of_drop_eq {position : Nat} (behind : text.drop position = own ++ rest) :
    PlacedWord.IsTag text ⟨position, own⟩ ↔
      (∃ space ∈ rest.head?, isWhiteSpace space = true) ∧ '@' ∈ own.dropLast := by
  have next : text[PlacedWord.stop ⟨position, own⟩]? = rest.head? := by
    rw [PlacedWord.stop, ← List.getElem?_drop, behind,
      List.getElem?_append_right (Nat.le_refl _), Nat.sub_self, List.head?_eq_getElem?]
  rw [PlacedWord.IsTag, next]

theorem filter_wordAt (text : List Char) (position : Nat) (own : List Char) :
    (wordAt position own).filter (fun word => word.IsTag text) =
      if PlacedWord.IsTag text ⟨position, own⟩ then [⟨position, own⟩] else [] := by
  by_cases isTag : PlacedWord.IsTag text ⟨position, own⟩
  · have nonempty : own ≠ [] := by
      rintro rfl
      exact List.not_mem_nil isTag.2
    rw [if_pos isTag, wordAt, if_neg nonempty, List.filter_cons_of_pos (by simpa using isTag),
      List.filter_nil]
  · rw [if_neg isTag, List.filter_eq_nil_iff]
    intro word member
    obtain ⟨-, rfl⟩ := mem_wordAt_iff.mp member
    simpa using isTag

/-- The marked words are the words that are tags. -/
theorem markedWords_eq_words {position : Nat} (behind : text.drop position = rest) :
    markedWords position none rest =
      ((wordsFrom position rest).filter fun word => word.IsTag text).map PlacedWord.marker := by
  induction rest using word_induction generalizing position with
  | alone own isOwn =>
    have noTag : ¬ PlacedWord.IsTag text ⟨position, own⟩ := by
      rw [isTag_iff_of_drop_eq (behind.trans (List.append_nil own).symm)]
      simp
    rw [markedWords_of_isWord isOwn, wordsFrom_of_isWord isOwn, filter_wordAt, if_neg noTag,
      List.map_nil]
  | followed own space rest isOwn isSpace inductionHypothesis =>
    have isTag : PlacedWord.IsTag text ⟨position, own⟩ ↔ '@' ∈ own.dropLast := by
      rw [isTag_iff_of_drop_eq behind]
      simp [isSpace]
    have later : text.drop (position + own.length + 1) = rest := by
      rw [Nat.add_assoc, ← List.drop_drop, behind, List.drop_length_add_append]
      rfl
    rw [markedWords_append_space isOwn isSpace, wordsFrom_append_space isOwn isSpace,
      List.filter_append, List.map_append, inductionHypothesis later, filter_wordAt]
    simp only [isTag]
    split
    · rfl
    · rfl

/-! ### Cutting by words -/

/-- Where the segment of a tag ends: at the `@` of the next tag, or at the end of the text. -/
def nextSign (text : List Char) : List PlacedWord → Nat
  | [] => text.length
  | next :: _ => next.sign

/-- The segments that the words make which are tags. -/
def wordSegments (text : List Char) : List PlacedWord → List Segment
  | [] => []
  | word :: words =>
    { name := word.name
      value := Range.slice ⟨word.stop + 1, nextSign text words⟩ text
      range := ⟨word.sign, nextSign text words⟩ } :: wordSegments text words

/-- Cuts a text into description and tags by its words. -/
def cutByWords? (text : List Char) : Option TaggedText :=
  match (words text).filter fun word => word.IsTag text with
  | [] => none
  | first :: others =>
    some ⟨trim (text.take first.sign), wordSegments text (first :: others)⟩

theorem slice_name {word : PlacedWord} (isIn : word.IsIn text) :
    word.marker.name.slice text = word.name := by
  obtain ⟨before, after, rfl, start, -, -⟩ := isIn
  have range : word.marker.name =
      ⟨before.length + (word.chars.idxOf '@' + 1), before.length + word.chars.length⟩ := by
    rw [start]
    rfl
  rw [range, Range.slice, List.take_length_add_append, List.take_left,
    List.drop_length_add_append]
  rfl

theorem segmentStop_map (text : List Char) (tags : List PlacedWord) :
    segmentStop text (tags.map PlacedWord.marker) = nextSign text tags := by
  cases tags with
  | nil => rfl
  | cons word words => rfl

theorem segmentsOf_map {tags : List PlacedWord} (isIn : ∀ word ∈ tags, word.IsIn text)
    (inOrder : Range.InOrder text ((tags.map PlacedWord.marker).map Marker.whole)) :
    segmentsOf text (tags.map PlacedWord.marker) = wordSegments text tags := by
  induction tags with
  | nil => rfl
  | cons word words inductionHypothesis =>
    obtain ⟨first, others⟩ := List.forall_mem_cons.mp isIn
    have stop := stop_le_segmentStop inOrder
    rw [segmentStop_map] at stop
    rw [List.map_cons, segmentsOf, wordSegments, segmentStop_map, slice_name first,
      inductionHypothesis others inOrder.tail, Nat.min_eq_left stop]
    rfl

theorem Pattern.cut?_tagWord (text : List Char) :
    tagWord.markers.cut? text = cutByWords? text := by
  have found : tagWord.markers.markers text =
      ((words text).filter fun word => word.IsTag text).map PlacedWord.marker :=
    (markers_tagWord text).trans (markedWords_eq_words List.drop_zero)
  have inOrder := MarkerSearch.inOrder_markers (tagWord.inOrder_markers text)
  have isIn : ∀ word ∈ (words text).filter fun word => word.IsTag text, word.IsIn text :=
    fun word member => mem_words_iff.mp (List.mem_of_mem_filter member)
  rw [found] at inOrder
  have segments := segmentsOf_map isIn inOrder
  rw [MarkerSearch.cut?, found, cutByWords?]
  cases tags : (words text).filter fun word => word.IsTag text with
  | nil => rfl
  | cons first others =>
    rw [tags, List.map_cons] at segments
    rw [List.map_cons]
    simp only [segments]
    rfl

theorem cutByWords?_eq_none_iff (text : List Char) :
    cutByWords? text = none ↔ ∀ word : PlacedWord, word.IsIn text → ¬ word.IsTag text := by
  have noTag : ((words text).filter fun word => word.IsTag text) = [] ↔
      ∀ word : PlacedWord, word.IsIn text → ¬ word.IsTag text := by
    simp only [List.filter_eq_nil_iff, mem_words_iff, decide_eq_true_eq]
  rw [← noTag, cutByWords?]
  cases (words text).filter fun word => word.IsTag text with
  | nil => exact iff_of_true rfl rfl
  | cons first others => exact iff_of_false nofun nofun

/-- The standard tag pattern cuts a text by its words. The words are the longest runs of characters
that are not white space, in order. There is a segment for each word that white space follows and
that has an `@` which is not its last character: it runs from the first `@` of the word to that of
the next such word, or to the end of the text, its name is the rest of the word, and its value
begins behind the white space character. The description is what stands before the first such `@`,
trimmed, and the text is not cut if there is no such word. -/
theorem cut?_by_words :
    ∃ pattern, Pattern.read? ParserConfig.standard.tagPattern.toList = some pattern ∧
      ∀ text,
        (∀ word, word ∈ words text ↔ word.IsIn text) ∧
        ((words text).Pairwise fun earlier later => earlier.stop < later.start) ∧
        pattern.markers.cut? text = cutByWords? text ∧
        (pattern.markers.cut? text = none ↔
          ∀ word : PlacedWord, word.IsIn text → ¬ word.IsTag text) := by
  refine ⟨Pattern.tagWord, Pattern.read?_standard, fun text => ?_⟩
  have cut := Pattern.cut?_tagWord text
  refine ⟨fun word => mem_words_iff, pairwise_wordsFrom text 0, cut, ?_⟩
  rw [cut]
  exact cutByWords?_eq_none_iff text

/-- Words with two signs, a sign alone, a sign at the end of a word, and a word at the end. -/
example : Pattern.tagWord.markers.cut? "see a@b@ @ c@ @@x\n@end".toList =
    some ⟨"see a".toList,
      [⟨"b@".toList, "@ c@ ".toList, ⟨5, 14⟩⟩, ⟨"@x".toList, "@end".toList, ⟨14, 22⟩⟩]⟩ := by
  decide +kernel

end DocComments
