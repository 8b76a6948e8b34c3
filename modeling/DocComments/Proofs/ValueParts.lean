/-
This file says what the parts of a tag value are, without saying how they are read.

A part is a longest run of characters of some kind, a text in braces, the suffix of a parameter or
the last word of a heading. Each is described by what it contains and by what may follow it, and for
each the function that reads it is shown to find exactly the part that is so described. White space
around texts is described in the same way: a text is trimmed if it neither starts nor ends with any.
-/

import Mathlib.Data.List.DropRight
import DocComments.Proofs.MarkedWords
import DocComments.Proofs.NestedBraces
import DocComments.TagValue.Property

namespace DocComments

/-! ### Ends of texts -/

namespace Text

/-- The first character of a text, if there is one, is of a kind. -/
def Starts (kind : Char → Prop) (text : List Char) : Prop :=
  ∀ c, text.head? = some c → kind c

/-- The last character of a text, if there is one, is of a kind. -/
def Ends (kind : Char → Prop) (text : List Char) : Prop :=
  ∀ c, text.getLast? = some c → kind c

theorem starts_nil (kind : Char → Prop) : Starts kind [] := nofun

theorem ends_nil (kind : Char → Prop) : Ends kind [] := nofun

theorem starts_cons_iff {kind : Char → Prop} {c : Char} {rest : List Char} :
    Starts kind (c :: rest) ↔ kind c := by
  simp [Starts]

theorem ends_concat_iff {kind : Char → Prop} {c : Char} {front : List Char} :
    Ends kind (front ++ [c]) ↔ kind c := by
  simp [Ends]

theorem starts_reverse_iff {kind : Char → Prop} {text : List Char} :
    Starts kind text.reverse ↔ Ends kind text := by
  rw [Starts, Ends, List.head?_reverse]

instance {kind : Char → Prop} [DecidablePred kind] (text : List Char) :
    Decidable (Starts kind text) :=
  match text with
  | [] => .isTrue (starts_nil kind)
  | c :: _ => decidable_of_iff (kind c) starts_cons_iff.symm

instance {kind : Char → Prop} [DecidablePred kind] (text : List Char) :
    Decidable (Ends kind text) :=
  decidable_of_iff (Starts kind text.reverse) starts_reverse_iff

theorem starts_dropWhile (kind : Char → Bool) (text : List Char) :
    Starts (kind · = false) (text.dropWhile kind) := by
  intro c first
  have stopped := List.head?_dropWhile_not kind text
  rwa [first] at stopped

/-! ### Runs -/

theorem takeWhile_append_of_starts {kind : Char → Bool} {run rest : List Char}
    (inside : ∀ c ∈ run, kind c = true) (ended : Starts (kind · = false) rest) :
    (run ++ rest).takeWhile kind = run := by
  rw [List.takeWhile_append_of_pos inside]
  cases rest with
  | nil => rw [List.takeWhile_nil, List.append_nil]
  | cons c rest =>
    rw [List.takeWhile_cons_of_neg (by rw [starts_cons_iff.mp ended]; nofun), List.append_nil]

theorem dropWhile_append_of_starts {kind : Char → Bool} {run rest : List Char}
    (inside : ∀ c ∈ run, kind c = true) (ended : Starts (kind · = false) rest) :
    (run ++ rest).dropWhile kind = rest := by
  rw [List.dropWhile_append_of_pos inside]
  cases rest with
  | nil => rfl
  | cons c rest => rw [List.dropWhile_cons_of_neg (by rw [starts_cons_iff.mp ended]; nofun)]

/-- A run of characters of a kind that is not empty and cannot go on. -/
structure IsRun (kind : Char → Bool) (run rest : List Char) : Prop where
  nonempty : run ≠ []
  inside : ∀ c ∈ run, kind c = true
  ended : Starts (kind · = false) rest

/-! ### Trimming -/

/-- A text without white space at its ends. -/
structure Trimmed (text : List Char) : Prop where
  starts : Starts (isWhiteSpace · = false) text
  ends : Ends (isWhiteSpace · = false) text

instance (text : List Char) : Decidable (Trimmed text) :=
  decidable_of_iff (Starts (isWhiteSpace · = false) text ∧ Ends (isWhiteSpace · = false) text)
    ⟨fun ⟨starts, ends⟩ => ⟨starts, ends⟩, fun trimmed => ⟨trimmed.starts, trimmed.ends⟩⟩

theorem dropTail_append_of_ends {cut : Char → Bool} {text tail : List Char}
    (inside : ∀ c ∈ tail, cut c = true) (ends : Ends (cut · = false) text) :
    dropTail cut (text ++ tail) = text := by
  rw [dropTail, List.reverse_append, dropWhile_append_of_starts, List.reverse_reverse]
  · exact fun c member => inside c (List.mem_reverse.mp member)
  · exact starts_reverse_iff.mpr ends

/-- Trimming takes away white space around a trimmed text. -/
theorem trim_of_trimmed {before text after : List Char} (trimmed : Trimmed text)
    (spaceBefore : ∀ c ∈ before, isWhiteSpace c = true)
    (spaceAfter : ∀ c ∈ after, isWhiteSpace c = true) :
    trim (before ++ text ++ after) = text := by
  rw [trim, trimWith]
  cases text with
  | nil =>
    have onlySpace : (before ++ [] ++ after).dropWhile isWhiteSpace = [] := by
      refine List.dropWhile_eq_nil_iff.mpr fun c member => ?_
      rw [List.append_nil] at member
      exact (List.mem_append.mp member).elim (spaceBefore c) (spaceAfter c)
    rw [onlySpace]
    rfl
  | cons c text =>
    have first : Starts (isWhiteSpace · = false) (c :: text ++ after) :=
      starts_cons_iff.mpr (starts_cons_iff.mp trimmed.starts)
    rw [List.append_assoc, dropWhile_append_of_starts spaceBefore first,
      dropTail_append_of_ends spaceAfter trimmed.ends]

/-! ### The last word -/

instance (text : List Char) : Decidable (IsWord text) :=
  List.decidableBAll _ text

/-- A text ends in a word, with nothing or white space before it. -/
structure EndsInWord (text front word : List Char) : Prop where
  whole : text = front ++ word
  isWord : IsWord word
  ends : Ends (isWhiteSpace · = true) front

theorem exists_endsInWord (text : List Char) : ∃ front word, EndsInWord text front word := by
  rcases isWord_or_split text.reverse with isWord | ⟨word, space, rest, whole, isWord, isSpace⟩
  · refine ⟨[], text, rfl, fun c member => isWord c (List.mem_reverse.mpr member), ends_nil _⟩
  · refine ⟨rest.reverse ++ [space], word.reverse, ?_, ?_, ends_concat_iff.mpr isSpace⟩
    · rw [← List.reverse_reverse text, whole, List.reverse_append, List.reverse_cons]
    · exact fun c member => isWord c (List.mem_reverse.mp member)

theorem EndsInWord.takeWhile_reverse {text front word : List Char}
    (ends : EndsInWord text front word) :
    text.reverse.takeWhile (fun c => !isWhiteSpace c) = word.reverse ∧
      text.reverse.dropWhile (fun c => !isWhiteSpace c) = front.reverse := by
  have inside : ∀ c ∈ word.reverse, (!isWhiteSpace c) = true := fun c member => by
    rw [ends.isWord c (List.mem_reverse.mp member)]
    rfl
  have ended : Starts (fun c => (!isWhiteSpace c) = false) front.reverse := by
    refine starts_reverse_iff.mpr fun c last => ?_
    rw [ends.ends c last]
    rfl
  rw [ends.whole, List.reverse_append]
  exact ⟨takeWhile_append_of_starts inside ended, dropWhile_append_of_starts inside ended⟩

theorem EndsInWord.splitLastSpace?_of_nil {text word : List Char}
    (ends : EndsInWord text [] word) : splitLastSpace? text = none := by
  rw [splitLastSpace?, ends.takeWhile_reverse.2]
  rfl

theorem EndsInWord.splitLastSpace?_of_concat {text before word : List Char} {space : Char}
    (ends : EndsInWord text (before ++ [space]) word) :
    splitLastSpace? text = some (before, word) := by
  rw [splitLastSpace?, ends.takeWhile_reverse.2, ends.takeWhile_reverse.1, List.reverse_concat]
  simp only [List.reverse_reverse]

end Text

namespace TagValue

open Text

/-! ### Headings -/

/-- What a heading says: the trimmed heading is the title, but if its last word is a number sign
and something more, that is the language, and the title is what stands before it. -/
inductive Heads (heading : List Char) : List Char → Option (List Char) → Prop where
  | plain {front word : List Char} (last : EndsInWord (trim heading) front word)
      (noLanguage : ∀ language, language ≠ [] → word ≠ '#' :: language) :
      Heads heading (trim heading) none
  | language {front language : List Char}
      (last : EndsInWord (trim heading) front ('#' :: language)) (nonempty : language ≠ []) :
      Heads heading (dropTail isWhiteSpace front) (some language)

theorem dropTail_concat_of_cut {cut : Char → Bool} {c : Char} (isCut : cut c = true)
    (text : List Char) : dropTail cut (text ++ [c]) = dropTail cut text :=
  List.rdropWhile_concat_pos cut text c isCut

theorem splitLanguage_of_language {heading front language : List Char}
    (last : EndsInWord (trim heading) front ('#' :: language)) (nonempty : language ≠ []) :
    splitLanguage heading = (dropTail isWhiteSpace front, some language) := by
  obtain ⟨c, language, rfl⟩ := List.exists_cons_of_ne_nil nonempty
  rcases List.eq_nil_or_concat' front with rfl | ⟨before, space, rfl⟩
  · have whole : trim heading = '#' :: c :: language := last.whole
    simp only [splitLanguage, last.splitLastSpace?_of_nil]
    simp only [whole]
    rfl
  · simp only [splitLanguage, last.splitLastSpace?_of_concat,
      dropTail_concat_of_cut (ends_concat_iff.mp last.ends)]

theorem splitLanguage_of_plain {heading front word : List Char}
    (last : EndsInWord (trim heading) front word)
    (noLanguage : ∀ language, language ≠ [] → word ≠ '#' :: language) :
    splitLanguage heading = (trim heading, none) := by
  rcases List.eq_nil_or_concat' front with rfl | ⟨before, space, rfl⟩
  · have whole : trim heading = word := last.whole
    simp only [splitLanguage, last.splitLastSpace?_of_nil]
    split
    · rename_i same
      exact absurd (whole.symm.trans same) (noLanguage _ (List.cons_ne_nil _ _))
    · rfl
  · simp only [splitLanguage, last.splitLastSpace?_of_concat]
    split
    · exact absurd rfl (noLanguage _ (List.cons_ne_nil _ _))
    · rfl

theorem heads_splitLanguage (heading : List Char) :
    Heads heading (splitLanguage heading).1 (splitLanguage heading).2 := by
  obtain ⟨front, word, last⟩ := exists_endsInWord (trim heading)
  by_cases noLanguage : ∀ language, language ≠ [] → word ≠ '#' :: language
  · rw [splitLanguage_of_plain last noLanguage]
    exact .plain last noLanguage
  · push Not at noLanguage
    obtain ⟨language, nonempty, rfl⟩ := noLanguage
    rw [splitLanguage_of_language last nonempty]
    exact .language last nonempty

theorem Heads.splitLanguage_eq {heading title : List Char} {language : Option (List Char)}
    (heads : Heads heading title language) : splitLanguage heading = (title, language) := by
  cases heads with
  | plain last noLanguage => exact splitLanguage_of_plain last noLanguage
  | language last nonempty => exact splitLanguage_of_language last nonempty

/-! ### Texts in braces -/

/-- A value that has a balanced text in braces at its head, perhaps after separators, and what
follows it. -/
def InBraces (value body rest : List Char) : Prop :=
  ∃ gap, value = gap ++ '{' :: (body ++ '}' :: rest) ∧ (∀ c ∈ gap, isSeparator c = true) ∧
    Balanced body

theorem skipSeparators_append {gap rest : List Char} (inside : ∀ c ∈ gap, isSeparator c = true)
    (ended : Starts (isSeparator · = false) rest) : skipSeparators (gap ++ rest) = rest :=
  dropWhile_append_of_starts inside ended

/-- Every value is separators and what follows them. -/
theorem exists_gap (value : List Char) :
    ∃ gap, value = gap ++ skipSeparators value ∧ (∀ c ∈ gap, isSeparator c = true) ∧
      Starts (isSeparator · = false) (skipSeparators value) :=
  ⟨value.takeWhile isSeparator, List.takeWhile_append_dropWhile.symm,
    fun _ => List.mem_takeWhile_imp, starts_dropWhile isSeparator value⟩

theorem braced?_skipSeparators_iff {value body rest : List Char} :
    braced? (skipSeparators value) = some (body, rest) ↔ InBraces value body rest := by
  rw [braced?_eq_some_iff]
  constructor
  · rintro ⟨found, balanced⟩
    obtain ⟨gap, whole, inside, -⟩ := exists_gap value
    rw [found] at whole
    exact ⟨gap, whole, inside, balanced⟩
  · rintro ⟨gap, rfl, inside, balanced⟩
    exact ⟨skipSeparators_append inside (starts_cons_iff.mpr rfl), balanced⟩

theorem atBreak_iff {rest : List Char} :
    atBreak rest = true ↔ Starts (isSeparator · = true) rest := by
  cases rest with
  | nil => exact iff_of_true rfl (starts_nil _)
  | cons c rest => rw [starts_cons_iff, atBreak]

theorem typeAnnotation?_eq_some_iff {value body : List Char} :
    typeAnnotation? value = some body ↔
      ∃ rest, InBraces value body rest ∧ Starts (isSeparator · = true) rest := by
  rw [typeAnnotation?]
  constructor
  · intro found
    obtain ⟨⟨own, rest⟩, braced, ended⟩ := Option.bind_eq_some_iff.mp found
    obtain ⟨isEnd, same⟩ := Option.ite_none_right_eq_some.mp ended
    cases same
    exact ⟨rest, braced?_skipSeparators_iff.mp braced, atBreak_iff.mp isEnd⟩
  · rintro ⟨rest, inBraces, ended⟩
    rw [braced?_skipSeparators_iff.mpr inBraces]
    exact if_pos (atBreak_iff.mpr ended)

/-! ### Parameters -/

/-- How what follows the name of a parameter is written, before the rest of the value. -/
inductive WritesSuffix : Option ParamSuffix → List Char → List Char → Prop where
  | none (rest : List Char) : WritesSuffix none [] rest
  | sequenced (rest : List Char) : WritesSuffix (some .sequenced) ['.', '.', '.'] rest
  | default {value rest : List Char} (run : IsRun isDefaultCharacter value rest)
      (noDots : ¬ ['.', '.', '.'] <:+ value) :
      WritesSuffix (some (.default value)) ('=' :: value) rest

/-- A separator or an opening brace, which may follow the name of a parameter and its suffix. -/
def FollowsName (c : Char) : Prop :=
  isSeparator c = true ∨ c = '{'

/-- A value that has the name of a parameter at its head, perhaps after separators, with its suffix,
and what follows these. -/
def NamesParam (value name : List Char) (suffix : Option ParamSuffix) (rest : List Char) : Prop :=
  ∃ gap written, value = gap ++ (name ++ (written ++ rest)) ∧
    (∀ c ∈ gap, isSeparator c = true) ∧ IsRun isNameCharacter name (written ++ rest) ∧
    WritesSuffix suffix written rest ∧ Starts FollowsName rest

theorem exists_written_of_readSuffix {text rest : List Char} {suffix : Option ParamSuffix}
    (read : readSuffix text = (suffix, rest)) :
    ∃ written, text = written ++ rest ∧ WritesSuffix suffix written rest := by
  unfold readSuffix at read
  split at read
  · cases read
    exact ⟨['.', '.', '.'], rfl, .sequenced _⟩
  · rename_i after
    simp only at read
    split at read
    · cases read
      exact ⟨[], rfl, .none _⟩
    · rename_i proper
      cases read
      have ⟨nonempty, noDots⟩ := not_or.mp (mt Bool.or_eq_true_iff.mpr proper)
      refine ⟨'=' :: after.takeWhile isDefaultCharacter, ?_, .default ⟨?_, ?_, ?_⟩ ?_⟩
      · rw [List.cons_append, List.takeWhile_append_dropWhile]
      · exact mt List.isEmpty_iff.mpr nonempty
      · exact fun c => List.mem_takeWhile_imp
      · exact starts_dropWhile isDefaultCharacter after
      · exact mt List.isSuffixOf_iff_suffix.mpr noDots
  · cases read
    exact ⟨[], rfl, .none _⟩

theorem readSuffix_of_starts {rest : List Char} (ended : Starts FollowsName rest) :
    readSuffix rest = (none, rest) := by
  unfold readSuffix
  split
  · exact absurd (starts_cons_iff.mp ended) (by simp [FollowsName, isSeparator])
  · exact absurd (starts_cons_iff.mp ended) (by simp [FollowsName, isSeparator])
  · rfl

theorem readSuffix_append {written rest : List Char} {suffix : Option ParamSuffix}
    (writes : WritesSuffix suffix written rest) (ended : Starts FollowsName rest) :
    readSuffix (written ++ rest) = (suffix, rest) := by
  cases writes with
  | none => exact readSuffix_of_starts ended
  | sequenced => rfl
  | @default value _ run noDots =>
    have proper : ¬ (value.isEmpty || endsInDots value) = true := by
      rw [Bool.or_eq_true_iff, List.isEmpty_iff, endsInDots, List.isSuffixOf_iff_suffix]
      exact not_or.mpr ⟨run.nonempty, noDots⟩
    rw [List.cons_append, readSuffix]
    simp only [takeWhile_append_of_starts run.inside run.ended,
      dropWhile_append_of_starts run.inside run.ended, if_neg proper]

end TagValue

end DocComments
