/-
This file proves that a title in quotes may stand anywhere in the value of an element tag.

The first pair of quotes is taken out of the value with the title in it, and a space is put in its
place, so that words on its two sides do not run together. Where there is white space on one of the
sides already, or nothing, the space changes no word: the first word of the value is that of the
value without the title. What stands behind the pair is not looked at for a title, so quotes in it
are text like any other. So is a quote that has no partner: it takes nothing out, and if it stands
in the first word it belongs to the name.
-/

import DocComments.Proofs.FirstTokens
import DocComments.Proofs.TypeReferences

namespace DocComments

/-! ### First words of a text in two parts -/

namespace Text

variable {before after word : List Char}

theorem firstWord?_append_of_space (space : ∀ c ∈ before, isWhiteSpace c = true)
    (after : List Char) : firstWord? (before ++ after) = firstWord? after := by
  rw [firstWord?, firstWord?, List.dropWhile_append_of_pos space]

/-- A first word is not prolonged by what follows, if there is white space between the two. -/
theorem IsFirstWord.append (first : IsFirstWord before word)
    (apart : Ends (isWhiteSpace · = true) before ∨ Starts (isWhiteSpace · = true) after) :
    IsFirstWord (before ++ after) word := by
  obtain ⟨space, rest, rfl, inSpace, run⟩ := first
  refine ⟨space, rest ++ after, by simp only [List.append_assoc], inSpace, run.nonempty, run.inside,
    ?_⟩
  cases rest with
  | nil =>
    rcases apart with ends | starts
    · obtain ⟨front, last, rfl⟩ := (List.eq_nil_or_concat word).resolve_left run.nonempty
      rw [List.concat_eq_append] at ends run
      rw [List.append_nil, ← List.append_assoc, ends_concat_iff] at ends
      have inside := run.inside last (List.mem_append_right _ List.mem_cons_self)
      rw [ends] at inside
      cases inside
    · intro c isFirst
      rw [starts c isFirst]
      rfl
  | cons c rest => exact starts_cons_iff.mpr (starts_cons_iff.mp run.ended)

/-- A space between two parts that are apart already changes no first word. -/
theorem firstWord?_insert_space
    (apart : Ends (isWhiteSpace · = true) before ∨ Starts (isWhiteSpace · = true) after) :
    firstWord? (before ++ ' ' :: after) = firstWord? (before ++ after) := by
  by_cases blank : ∀ c ∈ before, isWhiteSpace c = true
  · have space : ∀ c ∈ [' '], isWhiteSpace c = true := List.forall_mem_singleton.mpr rfl
    rw [firstWord?_append_of_space blank, firstWord?_append_of_space blank]
    exact firstWord?_append_of_space space after
  · obtain ⟨word, first⟩ := exists_isFirstWord_iff.mpr blank
    have spaced : IsFirstWord (before ++ ' ' :: after) word :=
      first.append (.inr (starts_cons_iff.mpr (by decide)))
    rw [firstWord?_of_isFirstWord spaced, firstWord?_of_isFirstWord (first.append apart)]

theorem trim_eq_nil_iff {text : List Char} :
    trim text = [] ↔ ∀ c ∈ text, isWhiteSpace c = true := by
  obtain ⟨front, back, parts, inFront, inBack, trimmed⟩ := exists_trim text
  constructor
  · intro empty
    rw [empty, List.append_nil] at parts
    rw [parts]
    exact List.forall_mem_append.mpr ⟨inFront, inBack⟩
  · intro space
    have onlySpace := @trim_of_trimmed text [] [] ⟨starts_nil _, ends_nil _⟩ space nofun
    rwa [List.append_nil, List.append_nil] at onlySpace

end Text

namespace TagValue

open Text

variable {before title : List Char}

/-! ### The first pair of quotes -/

/-- A value with a title in quotes between its two parts. -/
def withTitle (before title after : List Char) : List Char :=
  before ++ '"' :: (title ++ '"' :: after)

theorem quoted?_withTitle (plainBefore : '"' ∉ before) (plainTitle : '"' ∉ title)
    (after : List Char) : quoted? (withTitle before title after) = some (before, title, after) := by
  have opening : splitFirst? '"' (withTitle before title after) =
      some (before, title ++ '"' :: after) := splitFirst?_eq_some_iff.mpr ⟨rfl, plainBefore⟩
  have closing : splitFirst? '"' (title ++ '"' :: after) = some (title, after) :=
    splitFirst?_eq_some_iff.mpr ⟨rfl, plainTitle⟩
  rw [quoted?, opening]
  simp only [Option.bind_eq_bind, Option.bind_some, closing, Option.pure_def]

theorem quoted?_of_lone {after : List Char} (plainBefore : '"' ∉ before)
    (plainAfter : '"' ∉ after) : quoted? (before ++ '"' :: after) = none := by
  rw [quoted?, splitFirst?_eq_some_iff.mpr ⟨rfl, plainBefore⟩]
  simp only [Option.bind_eq_bind, Option.bind_some, splitFirst?_of_notMem plainAfter,
    Option.bind_none]

theorem elementName?_of_unquoted {value : List Char} (noPair : quoted? value = none) :
    elementName? value = (firstWord? value).map fun word => ⟨word, none⟩ := by
  rw [elementName?, noPair]

theorem elementName?_withTitle (plainBefore : '"' ∉ before) (plainTitle : '"' ∉ title)
    (after : List Char) :
    elementName? (withTitle before title after) =
      (firstWord? (before ++ ' ' :: after)).map fun word => ⟨word, titleOf title⟩ := by
  rw [elementName?, quoted?_withTitle plainBefore plainTitle]

/-! ### Titles and names -/

/-- The title of a name is the text in the quotes without white space around it, and there is none
if nothing is left. -/
structure TitledBy (name : ElementName) (inside : List Char) : Prop where
  blank : (∀ c ∈ inside, isWhiteSpace c = true) → name.title = none
  shown : (∃ c ∈ inside, isWhiteSpace c = false) → name.title = some (trim inside)

theorem titledBy_titleOf (word inside : List Char) : TitledBy ⟨word, titleOf inside⟩ inside := by
  have isTitle : titleOf inside = if (trim inside).isEmpty then none else some (trim inside) := rfl
  constructor
  · intro space
    rw [isTitle, trim_eq_nil_iff.mpr space]
    rfl
  · rintro ⟨c, member, notSpace⟩
    have nonempty : trim inside ≠ [] := by
      intro empty
      rw [trim_eq_nil_iff.mp empty c member] at notSpace
      cases notSpace
    rw [isTitle, if_neg (mt List.isEmpty_iff.mp nonempty)]

/-- Whatever follows the first pair of quotes, there is a name unless there is nothing but white
space around the pair, and the title is what stands in it. -/
theorem elementName?_withTitle_cases (plainBefore : '"' ∉ before) (plainTitle : '"' ∉ title)
    (after : List Char) :
    (elementName? (withTitle before title after) = none ↔
      ∀ c ∈ before ++ after, isWhiteSpace c = true) ∧
    (∀ name, elementName? (withTitle before title after) = some name → TitledBy name title) := by
  rw [elementName?_withTitle plainBefore plainTitle]
  constructor
  · rw [Option.map_eq_none_iff, firstWord?_eq_none_iff, List.forall_mem_append,
      List.forall_mem_append, List.forall_mem_cons]
    exact and_congr_right fun _ => and_iff_right (by decide)
  · intro name named
    obtain ⟨word, -, rfl⟩ := Option.map_eq_some_iff.mp named
    exact titledBy_titleOf word title

/-- A title in quotes may stand anywhere in a value. Whatever follows it, further quotes included,
the title is the text in the first pair of quotes, and there is a name unless the rest is white
space. If the title stands between words, the name is that of the value without the title. A quote
without a partner is part of the word it stands in, and of the name if that is the first word. -/
theorem elementName?_finds_title (plainBefore : '"' ∉ before) (plainTitle : '"' ∉ title)
    (after : List Char) :
    (elementName? (withTitle before title after) = none ↔
      ∀ c ∈ before ++ after, isWhiteSpace c = true) ∧
    (∀ name, elementName? (withTitle before title after) = some name → TitledBy name title) ∧
    ('"' ∉ after →
      Ends (isWhiteSpace · = true) before ∨ Starts (isWhiteSpace · = true) after →
      ¬ (∀ c ∈ before ++ after, isWhiteSpace c = true) →
      ∃ own name, elementName? (before ++ after) = some own ∧
        elementName? (withTitle before title after) = some name ∧
        name.declared = own.declared ∧ IsFirstWord (before ++ after) own.declared) ∧
    ('"' ∉ after → ∃ word, IsFirstWord (before ++ '"' :: after) word ∧
      elementName? (before ++ '"' :: after) = some ⟨word, none⟩) := by
  obtain ⟨nameless, titled⟩ := elementName?_withTitle_cases plainBefore plainTitle after
  refine ⟨nameless, titled, fun plainAfter apart notBlank => ?_, fun plainAfter => ?_⟩
  · obtain ⟨word, first⟩ := exists_isFirstWord_iff.mpr notBlank
    have unquoted : '"' ∉ before ++ after :=
      List.mem_append.not.mpr (not_or.mpr ⟨plainBefore, plainAfter⟩)
    have noPair : quoted? (before ++ after) = none := by
      rw [quoted?, splitFirst?_of_notMem unquoted]
      rfl
    refine ⟨⟨word, none⟩, ⟨word, titleOf title⟩, ?_, ?_, rfl, first⟩
    · rw [elementName?_of_unquoted noPair, firstWord?_of_isFirstWord first]
      rfl
    · rw [elementName?_withTitle plainBefore plainTitle, firstWord?_insert_space apart,
        firstWord?_of_isFirstWord first]
      rfl
  · have notBlank : ¬ ∀ c ∈ before ++ '"' :: after, isWhiteSpace c = true := by
      intro space
      have quoteIsSpace := space '"' (List.mem_append_right _ List.mem_cons_self)
      exact absurd quoteIsSpace (by decide)
    obtain ⟨word, first⟩ := exists_isFirstWord_iff.mpr notBlank
    refine ⟨word, first, ?_⟩
    rw [elementName?_of_unquoted (quoted?_of_lone plainBefore plainAfter),
      firstWord?_of_isFirstWord first]
    rfl

/-- A title on two lines, with white space on one side only, is taken out and trimmed. -/
theorem elementName?_finds_title_between :
    '"' ∉ "intro ".toList ∧ '"' ∉ " Getting\nStarted ".toList ∧ '"' ∉ "x".toList ∧
    ∃ name, elementName? "intro \" Getting\nStarted \"x".toList = some name ∧
      name.declared = "intro".toList ∧ name.title = some "Getting\nStarted".toList := by
  obtain ⟨-, titled, names, -⟩ := @elementName?_finds_title "intro ".toList
    " Getting\nStarted ".toList (by decide) (by decide) "x".toList
  obtain ⟨own, name, readOwn, read, sameName, -⟩ := names (by decide) (.inl (by decide))
    fun space => absurd (space 'i' (by decide)) (by decide)
  have ownName : some own = some ⟨"intro".toList, none⟩ := readOwn.symm.trans rfl
  have title := (titled name read).shown ⟨'G', by decide, rfl⟩
  refine ⟨by decide, by decide, by decide, name, read, ?_, title.trans rfl⟩
  rw [sameName, Option.some.inj ownName]

end TagValue

end DocComments
