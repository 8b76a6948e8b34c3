/-
This file compares the tags that take one word with the names of elements.

A default and an access level are one word, and so is the name of an element. Words end at white
space of every kind, but the tags skip only separators before theirs. So they find the first word of
a value unless the white space before it has a character in it that is no separator, such as a
no-break space: there the word that they read is empty. A default is then null although a word is
written, and an access level is refused, while an element would be named by that word.
-/

import DocComments.Proofs.ValueGrammars

namespace DocComments

/-! ### First words -/

namespace Text

theorem isWhiteSpace_of_isSeparator {c : Char} (separates : isSeparator c = true) :
    isWhiteSpace c = true := by
  simp only [isSeparator, Bool.or_eq_true_iff, beq_iff_eq] at separates
  rcases separates with ((rfl | rfl) | rfl) | rfl <;> decide

/-- The first word of a text, with nothing or white space before it. -/
def IsFirstWord (text word : List Char) : Prop :=
  ∃ before after, text = before ++ (word ++ after) ∧ (∀ c ∈ before, isWhiteSpace c = true) ∧
    IsRun (fun c => !isWhiteSpace c) word after

/-- The white space at the head of a text is not all separators. -/
def LeadsWithOther (text : List Char) : Prop :=
  ∃ c ∈ text.takeWhile isWhiteSpace, isSeparator c = false

instance (text : List Char) : Decidable (LeadsWithOther text) :=
  List.decidableBEx _ (text.takeWhile isWhiteSpace)

variable {text word : List Char}

theorem IsFirstWord.nonempty (first : IsFirstWord text word) : word ≠ [] := by
  obtain ⟨_, _, _, _, run⟩ := first
  exact run.nonempty

theorem starts_of_isRun {rest : List Char} (run : IsRun (fun c => !isWhiteSpace c) word rest) :
    Starts (isWhiteSpace · = false) (word ++ rest) := by
  obtain ⟨c, word, rfl⟩ := List.exists_cons_of_ne_nil run.nonempty
  have noSpace := run.inside c List.mem_cons_self
  rw [Bool.not_eq_true'] at noSpace
  exact starts_cons_iff.mpr noSpace

theorem firstWord?_of_isFirstWord (first : IsFirstWord text word) :
    firstWord? text = some word := by
  obtain ⟨before, after, rfl, inBefore, run⟩ := first
  have left := dropWhile_append_of_starts inBefore (starts_of_isRun run)
  have taken := takeWhile_append_of_starts run.inside run.ended
  obtain ⟨c, word, rfl⟩ := List.exists_cons_of_ne_nil run.nonempty
  rw [firstWord?, left]
  exact congrArg some taken

theorem isFirstWord_of_firstWord? (found : firstWord? text = some word) :
    IsFirstWord text word := by
  have noSpace := starts_dropWhile isWhiteSpace text
  rw [firstWord?] at found
  cases left : text.dropWhile isWhiteSpace with
  | nil =>
    rw [left] at found
    cases found
  | cons c rest =>
    rw [left] at found noSpace
    cases found
    refine ⟨text.takeWhile isWhiteSpace, (c :: rest).dropWhile (fun d => !isWhiteSpace d), ?_,
      fun _ => List.mem_takeWhile_imp, ?_, fun _ => List.mem_takeWhile_imp, starts_dropWhile _ _⟩
    · rw [List.takeWhile_append_dropWhile, ← left, List.takeWhile_append_dropWhile]
    · rw [List.takeWhile_cons_of_pos (by rw [starts_cons_iff.mp noSpace]; rfl)]
      exact List.cons_ne_nil _ _

theorem firstWord?_eq_some_iff : firstWord? text = some word ↔ IsFirstWord text word :=
  ⟨isFirstWord_of_firstWord?, firstWord?_of_isFirstWord⟩

theorem firstWord?_eq_none_iff : firstWord? text = none ↔ ∀ c ∈ text, isWhiteSpace c = true := by
  rw [← List.dropWhile_eq_nil_iff, firstWord?]
  cases text.dropWhile isWhiteSpace with
  | nil => exact iff_of_true rfl rfl
  | cons c rest => exact iff_of_false nofun nofun

theorem exists_isFirstWord_iff :
    (∃ word, IsFirstWord text word) ↔ ¬ ∀ c ∈ text, isWhiteSpace c = true := by
  simp only [← firstWord?_eq_some_iff]
  rw [← firstWord?_eq_none_iff, ← Ne, Option.ne_none_iff_exists']

theorem splitFirst?_of_notMem {target : Char} {text : List Char} (absent : target ∉ text) :
    splitFirst? target text = none := by
  induction text with
  | nil => rfl
  | cons c rest ih =>
    rw [List.mem_cons, not_or] at absent
    rw [splitFirst?, if_neg (mt beq_iff_eq.mp (Ne.symm absent.1)), ih absent.2]
    rfl

end Text

namespace TagValue

open Text

variable {value word : List Char}

theorem token_of_isFirstWord (first : IsFirstWord value word) (plain : ¬ LeadsWithOther value) :
    token value = word := by
  obtain ⟨before, after, rfl, inBefore, run⟩ := first
  have noSpace := starts_of_isRun run
  have separates : ∀ c ∈ before, isSeparator c = true := by
    rw [LeadsWithOther, takeWhile_append_of_starts inBefore noSpace] at plain
    intro c member
    by_contra other
    exact plain ⟨c, member, Bool.eq_false_iff.mpr other⟩
  have noSeparator : Starts (isSeparator · = false) (word ++ after) := fun c isFirst =>
    Bool.eq_false_iff.mpr fun separates =>
      Bool.false_ne_true ((noSpace c isFirst).symm.trans (isWhiteSpace_of_isSeparator separates))
  rw [token, skipSeparators_append separates noSeparator,
    takeWhile_append_of_starts run.inside run.ended]

theorem token_of_starts (space : Starts (isWhiteSpace · = true) (skipSeparators value)) :
    token value = [] := by
  rw [token]
  cases left : skipSeparators value with
  | nil => rfl
  | cons c rest =>
    rw [left] at space
    rw [List.takeWhile_cons_of_neg (by rw [starts_cons_iff.mp space]; decide)]

theorem token_of_blank (blank : ∀ c ∈ value, isWhiteSpace c = true) : token value = [] :=
  token_of_starts fun c isFirst =>
    blank c ((List.dropWhile_sublist isSeparator).subset (List.mem_of_head? isFirst))

/-- The separators before the other white space are skipped, and nothing of the word is read. -/
theorem token_of_leadsWithOther (leads : LeadsWithOther value) : token value = [] := by
  obtain ⟨gap, whole, inGap, ended⟩ := exists_gap value
  refine token_of_starts fun c isFirst => ?_
  by_contra notSpace
  obtain ⟨other, inLead, isOther⟩ := leads
  have lead : value.takeWhile isWhiteSpace = gap := by
    rw [whole]
    refine takeWhile_append_of_starts (fun d member => isWhiteSpace_of_isSeparator (inGap d member))
      fun d first => ?_
    rw [isFirst] at first
    cases first
    exact Bool.eq_false_iff.mpr notSpace
  rw [lead] at inLead
  exact Bool.false_ne_true (isOther.symm.trans (inGap other inLead))

theorem token_eq_nil_iff :
    token value = [] ↔ (∀ c ∈ value, isWhiteSpace c = true) ∨ LeadsWithOther value := by
  refine ⟨fun empty => ?_, fun either => either.elim token_of_blank token_of_leadsWithOther⟩
  by_contra neither
  obtain ⟨notBlank, plain⟩ := not_or.mp neither
  obtain ⟨word, first⟩ := exists_isFirstWord_iff.mpr notBlank
  exact first.nonempty ((token_of_isFirstWord first plain).symm.trans empty)

/-- Without quotes, an element is named by the first word of the value. -/
theorem declared_iff_isFirstWord (unquoted : '"' ∉ value) :
    (elementName? value).map ElementName.declared = some word ↔ IsFirstWord value word := by
  have noTitle : quoted? value = none := by
    rw [quoted?, splitFirst?_of_notMem unquoted]
    rfl
  rw [elementName?, noTitle, ← firstWord?_eq_some_iff]
  cases firstWord? value with
  | none => rfl
  | some own => rfl

end TagValue

/-! ### Tags with one word -/

namespace PropertyTag

open TagValue Text

theorem read_default (style : TextStyle) (value : List Char) : default.read style value =
    .ok (.set .default
      (if (token value).isEmpty then .null else .text (String.ofList (token value)))) := rfl

theorem read_access (style : TextStyle) (value : List Char) : access.read style value =
    if (token value).isEmpty then .error (Rejection.malformedDiagnostic access)
    else .ok (.set .access (.text (String.ofList (token value)))) := by
  rw [read, TagValue.change?]
  cases (token value).isEmpty with
  | false => rfl
  | true => rfl

/-- A default and an access level are the first word of the value, as the name of an element is,
where nothing but separators stands before it. Without a word, and behind other white space, a
default is null and an access level is malformed. -/
theorem read_first_word (style : TextStyle) (value : List Char) :
    ((∃ word, IsFirstWord value word) ↔ ¬ ∀ c ∈ value, isWhiteSpace c = true) ∧
    ('"' ∉ value → ∀ word,
      (elementName? value).map ElementName.declared = some word ↔ IsFirstWord value word) ∧
    (∀ word, IsFirstWord value word → ¬ LeadsWithOther value →
      default.read style value = .ok (.set .default (.text (String.ofList word))) ∧
      access.read style value = .ok (.set .access (.text (String.ofList word)))) ∧
    (default.read style value = .ok (.set .default .null) ↔
      (∀ c ∈ value, isWhiteSpace c = true) ∨ LeadsWithOther value) ∧
    ((∃ diagnostic, access.read style value = .error diagnostic ∧
        diagnostic.code.map Code.text = some "E104") ↔
      (∀ c ∈ value, isWhiteSpace c = true) ∨ LeadsWithOther value) := by
  refine ⟨exists_isFirstWord_iff, fun unquoted word => declared_iff_isFirstWord unquoted,
    fun word first plain => ?_, ?_, ?_⟩
  · have found := token_of_isFirstWord first plain
    have nonempty : ¬ word.isEmpty = true := mt List.isEmpty_iff.mp first.nonempty
    rw [read_default, read_access, found, if_neg nonempty, if_neg nonempty]
    exact ⟨rfl, rfl⟩
  · rw [← token_eq_nil_iff, read_default, ← List.isEmpty_iff]
    cases (token value).isEmpty with
    | false => exact iff_of_false nofun nofun
    | true => exact iff_of_true rfl rfl
  · rw [← token_eq_nil_iff, read_access, ← List.isEmpty_iff]
    cases (token value).isEmpty with
    | false => exact iff_of_false nofun nofun
    | true => exact iff_of_true ⟨_, rfl, rfl⟩ rfl

/-- Behind a tab the first word is read. -/
theorem read_first_word_tab :
    default.read ⟨none⟩ "\t5 x".toList = .ok (.set .default (.text "5")) ∧
    access.read ⟨none⟩ "\t5 x".toList = .ok (.set .access (.text "5")) ∧
    (elementName? "\t5 x".toList).map ElementName.declared = some "5".toList := by
  have first : IsFirstWord "\t5 x".toList "5".toList :=
    ⟨"\t".toList, " x".toList, rfl, List.all_eq_true.mp rfl, by decide, List.all_eq_true.mp rfl,
      by decide⟩
  obtain ⟨-, names, reads, -⟩ := read_first_word ⟨none⟩ "\t5 x".toList
  have ⟨readDefault, readAccess⟩ := reads _ first (by decide)
  exact ⟨readDefault, readAccess, (names (by decide) _).mpr first⟩

/-- Behind a no-break space a default is lost and an access level is refused, although there is a
word, which would name an element. -/
theorem read_loses_first_word :
    IsFirstWord "\u00a05".toList "5".toList ∧
    (elementName? "\u00a05".toList).map ElementName.declared = some "5".toList ∧
    default.read ⟨none⟩ "\u00a05".toList = .ok (.set .default .null) ∧
    IsFirstWord "\u00a0private".toList "private".toList ∧
    access.read ⟨none⟩ "\u00a0private".toList =
      .error (Rejection.malformedDiagnostic access) := by
  have isSpace : ∀ c ∈ "\u00a0".toList, isWhiteSpace c = true := List.all_eq_true.mp rfl
  exact ⟨⟨"\u00a0".toList, [], rfl, isSpace, by decide, List.all_eq_true.mp rfl, starts_nil _⟩,
    rfl, rfl,
    ⟨"\u00a0".toList, [], rfl, isSpace, by decide, List.all_eq_true.mp rfl, starts_nil _⟩, rfl⟩

end PropertyTag

end DocComments
