/-
This file proves that values are read back as they were written.

A parameter, a return value and an example are given by their parts, and each has a text that puts
these parts in order, with a space, a hyphen or braces between them. Reading the text gives the
parts again. That one part does not take from the next is a matter of what each part may contain: a
name has no dot and no equals sign, a default has no white space and no brace, the text in braces
is balanced, and the heading of an example has no brace. Descriptions come last and are only
trimmed, so they may begin with a hyphen, a brace or a number sign.
-/

import DocComments.Proofs.ValueGrammars

namespace DocComments.TagValue

open Text

/-! ### Descriptions -/

theorem render_space_cons {description : List Char} (trimmed : Trimmed description) :
    TextStyle.render ⟨none⟩ (' ' :: description) = String.ofList description := by
  have trims : trim ([' '] ++ description ++ []) = description :=
    trim_of_trimmed trimmed (List.forall_mem_singleton.mpr rfl) nofun
  rw [List.append_nil, List.singleton_append] at trims
  rw [TextStyle.render, trims]

/-! ### Parameters -/

/-- A suffix that can be written behind a name: a default is not empty, ends before white space and
braces, and does not itself end in dots. -/
def ParamSuffix.Proper : ParamSuffix → Prop
  | .sequenced => True
  | .default value =>
    value ≠ [] ∧ (∀ c ∈ value, isDefaultCharacter c = true) ∧ ¬ ['.', '.', '.'] <:+ value

/-- The parts of a parameter: a name, perhaps a default or dots, perhaps a type, and a
description. -/
structure ParamParts where
  name : List Char
  suffix : Option ParamSuffix
  type : Option (List Char)
  description : List Char
  named : name ≠ []
  nameCharacters : ∀ c ∈ name, isNameCharacter c = true
  proper : ∀ own, suffix = some own → own.Proper
  balanced : ∀ body, type = some body → Balanced body
  trimmed : Trimmed description

namespace ParamParts

/-- The suffix as it is written. -/
def suffixText : Option ParamSuffix → List Char
  | none => []
  | some .sequenced => ['.', '.', '.']
  | some (.default value) => '=' :: value

/-- The type as it is written. -/
def typeText : Option (List Char) → List Char
  | none => []
  | some body => ' ' :: '{' :: (body ++ ['}'])

/-- The parts in order, with a hyphen before the description. -/
def write (parts : ParamParts) : List Char :=
  parts.name ++ suffixText parts.suffix ++ typeText parts.type ++
    ' ' :: '-' :: ' ' :: parts.description

/-- The parameter of the parts. -/
def param (parts : ParamParts) : Param :=
  { name := String.ofList parts.name
    default := match parts.suffix with
      | some (.default value) => some (String.ofList value)
      | _ => none
    sequenced := parts.suffix == some .sequenced
    type := parts.type.map typeRef
    description := String.ofList parts.description }

/-- What is written behind the name and its suffix. -/
def rest (parts : ParamParts) : List Char :=
  typeText parts.type ++ ' ' :: '-' :: ' ' :: parts.description

/-- A space follows the suffix, whether there is a type or not. -/
theorem starts_rest (parts : ParamParts) {kind : Char → Prop} (space : kind ' ') :
    Starts kind parts.rest := by
  rw [rest]
  cases parts.type with
  | none => exact starts_cons_iff.mpr space
  | some body => exact starts_cons_iff.mpr space

theorem writesSuffix (parts : ParamParts) :
    WritesSuffix parts.suffix (suffixText parts.suffix) parts.rest := by
  have proper := parts.proper
  cases written : parts.suffix with
  | none => exact .none _
  | some suffix =>
    cases suffix with
    | sequenced => exact .sequenced _
    | default value =>
      obtain ⟨nonempty, characters, noDots⟩ := proper _ written
      exact .default ⟨nonempty, characters, parts.starts_rest rfl⟩ noDots

theorem isRun_name (parts : ParamParts) :
    IsRun isNameCharacter parts.name (suffixText parts.suffix ++ parts.rest) := by
  refine ⟨parts.named, parts.nameCharacters, ?_⟩
  cases parts.suffix with
  | none => exact parts.starts_rest (by decide +kernel)
  | some suffix =>
    cases suffix with
    | sequenced => exact starts_cons_iff.mpr (by decide +kernel)
    | default value => exact starts_cons_iff.mpr (by decide +kernel)

theorem namesParam_write (parts : ParamParts) :
    NamesParam parts.write parts.name parts.suffix parts.rest := by
  refine ⟨[], suffixText parts.suffix, ?_, nofun, parts.isRun_name, parts.writesSuffix,
    parts.starts_rest (.inl rfl)⟩
  rw [write, rest, List.nil_append, List.append_assoc, List.append_assoc]

/-- The type is read from the rest, and the description from what follows it. -/
theorem exists_optionalType_rest (parts : ParamParts) :
    ∃ after, optionalType (skipSeparators parts.rest) = (parts.type, after) ∧
      descriptionAfter after = ' ' :: parts.description := by
  have balanced := parts.balanced
  cases written : parts.type with
  | none =>
    rw [rest, written]
    exact ⟨'-' :: ' ' :: parts.description, rfl, rfl⟩
  | some body =>
    have skipped : skipSeparators parts.rest =
        '{' :: (body ++ '}' :: ' ' :: '-' :: ' ' :: parts.description) := by
      rw [rest, written, typeText, List.cons_append, List.cons_append, List.append_assoc]
      rfl
    rw [skipped, optionalType, braced?_eq_some_iff.mpr ⟨rfl, balanced body written⟩]
    exact ⟨' ' :: '-' :: ' ' :: parts.description, rfl, rfl⟩

theorem paramOf_rest (parts : ParamParts) :
    paramOf ⟨none⟩ parts.name parts.suffix parts.rest = parts.param := by
  obtain ⟨after, typed, described⟩ := parts.exists_optionalType_rest
  have type : (optionalType (skipSeparators parts.rest)).1.map typeRef =
      parts.type.map typeRef := by
    rw [typed]
  have description : TextStyle.render ⟨none⟩
      (descriptionAfter (optionalType (skipSeparators parts.rest)).2) =
      String.ofList parts.description := by
    rw [typed, described, render_space_cons parts.trimmed]
  exact (Param.mk.injEq ..).mpr ⟨rfl, rfl, rfl, type, description⟩

theorem read_write (parts : ParamParts) :
    PropertyTag.param.read ⟨none⟩ parts.write = .ok (.addParam parts.param) := by
  refine PropertyTag.read_eq_ok_iff.mpr (Option.map_eq_some_iff.mpr ⟨_, ?_, rfl⟩)
  rw [param?_of_namesParam parts.namesParam_write, paramOf_rest]

end ParamParts

/-! ### Return values -/

/-- The parts of a return value: a type and a description, which may be empty. -/
structure ReturnParts where
  type : List Char
  description : List Char
  balanced : Balanced type
  trimmed : Trimmed description

namespace ReturnParts

/-- The type in braces, and the description after a hyphen. -/
def write (parts : ReturnParts) : List Char :=
  '{' :: (parts.type ++ '}' :: ' ' :: '-' :: ' ' :: parts.description)

/-- The return value of the parts. -/
def returnValue (parts : ReturnParts) : ReturnValue :=
  { type := some (typeRef parts.type)
    description :=
      if parts.description = [] then none else some (String.ofList parts.description) }

theorem read_write (parts : ReturnParts) :
    PropertyTag.returns.read ⟨none⟩ parts.write =
      .ok (.set .returns (.returns parts.returnValue)) := by
  have inBraces : InBraces parts.write parts.type (' ' :: '-' :: ' ' :: parts.description) :=
    ⟨[], rfl, nofun, parts.balanced⟩
  have described : descriptionAfter (' ' :: '-' :: ' ' :: parts.description) =
      ' ' :: parts.description := rfl
  have isEmpty : (String.ofList parts.description).isEmpty = true ↔ parts.description = [] := by
    rw [String.isEmpty_iff, String.ofList_eq_empty_iff]
  rw [PropertyTag.read_returns, returnValue?_of_inBraces inBraces, described,
    render_space_cons parts.trimmed, returnValue]
  simp only [isEmpty]
  rfl

end ReturnParts

/-! ### Examples -/

/-- The parts of an example: a title, perhaps a language, code and a description. Without a
language, the title does not end in a word that looks like one. -/
structure ExampleParts where
  title : List Char
  language : Option (List Char)
  code : List Char
  description : List Char
  titled : title ≠ []
  trimmedTitle : Trimmed title
  titleBeforeCode : '{' ∉ title
  languageNamed : ∀ own, language = some own → own ≠ []
  languageWord : ∀ own, language = some own → IsWord own
  languageBeforeCode : ∀ own, language = some own → '{' ∉ own
  noLanguage : language = none → ∀ front own, own ≠ [] → ¬ EndsInWord title front ('#' :: own)
  balanced : Balanced code
  codeStarts : Starts (fun c => c ≠ '\r' ∧ c ≠ '\n') code
  codeEnds : Ends (isWhiteSpace · = false) code
  trimmed : Trimmed description

namespace ExampleParts

/-- The language as it is written. -/
def languageText : Option (List Char) → List Char
  | none => []
  | some language => ' ' :: '#' :: language

/-- The parts in order, with the code in braces. -/
def write (parts : ExampleParts) : List Char :=
  parts.title ++ languageText parts.language ++
    ' ' :: '{' :: (parts.code ++ '}' :: ' ' :: parts.description)

/-- The example of the parts. -/
def sample (parts : ExampleParts) : Example :=
  { title := String.ofList parts.title
    language := parts.language.map String.ofList
    code := String.ofList parts.code
    description := String.ofList parts.description }

/-- What stands before the code. -/
def heading (parts : ExampleParts) : List Char :=
  parts.title ++ languageText parts.language ++ [' ']

theorem showsCode_write (parts : ExampleParts) :
    ShowsCode parts.write parts.heading parts.code (' ' :: parts.description) := by
  refine ⟨?_, ?_, parts.balanced⟩
  · rw [write, heading, List.append_assoc _ [' '], List.singleton_append]
  · have noBrace := parts.languageBeforeCode
    rw [heading, List.mem_append, List.mem_append]
    rintro ((inTitle | inLanguage) | isSpace)
    · exact parts.titleBeforeCode inTitle
    · cases written : parts.language with
      | none =>
        rw [written] at inLanguage
        exact absurd inLanguage List.not_mem_nil
      | some language =>
        rw [written] at inLanguage
        rcases inLanguage with _ | ⟨_, _ | ⟨_, inLanguage⟩⟩
        exact noBrace language written inLanguage
    · exact absurd isSpace (by decide)

theorem trimmed_titleAndLanguage (parts : ExampleParts) :
    Trimmed (parts.title ++ languageText parts.language) := by
  obtain ⟨c, title, titled⟩ := List.exists_cons_of_ne_nil parts.titled
  have trimmedTitle := parts.trimmedTitle
  rw [titled] at trimmedTitle ⊢
  refine ⟨starts_cons_iff.mpr (starts_cons_iff.mp trimmedTitle.starts), ?_⟩
  cases written : parts.language with
  | none =>
    rw [languageText, List.append_nil]
    exact trimmedTitle.ends
  | some language =>
    -- The last character is one of the language, which is not empty.
    intro last isLast
    rw [languageText, List.append_cons, List.append_cons,
      List.getLast?_append_of_ne_nil _ (parts.languageNamed language written)] at isLast
    exact parts.languageWord language written last (List.mem_of_getLast? isLast)

theorem trim_heading (parts : ExampleParts) :
    trim parts.heading = parts.title ++ languageText parts.language :=
  @trim_of_trimmed [] _ [' '] parts.trimmed_titleAndLanguage nofun
    (List.forall_mem_singleton.mpr rfl)

theorem heads_heading (parts : ExampleParts) :
    Heads parts.heading parts.title parts.language := by
  have trims := parts.trim_heading
  have noLanguage := parts.noLanguage
  cases written : parts.language with
  | none =>
    rw [written, languageText, List.append_nil] at trims
    obtain ⟨front, word, last⟩ := exists_endsInWord parts.title
    rw [← trims] at last ⊢
    refine .plain last fun language nonempty isLanguage => ?_
    rw [trims, isLanguage] at last
    exact noLanguage written front language nonempty last
  | some language =>
    have isWord : IsWord ('#' :: language) :=
      List.forall_mem_cons.mpr ⟨by decide, parts.languageWord language written⟩
    have last : EndsInWord (trim parts.heading) (parts.title ++ [' ']) ('#' :: language) := by
      refine ⟨?_, isWord, ends_concat_iff.mpr (by decide)⟩
      rw [trims, written, languageText, List.append_assoc, List.singleton_append]
    have heads := Heads.language last (parts.languageNamed language written)
    rwa [dropTail_append_of_ends (List.forall_mem_singleton.mpr rfl) parts.trimmedTitle.ends]
      at heads

theorem trimCode_code (parts : ExampleParts) : trimCode parts.code = parts.code := by
  have noBreak : parts.code.dropWhile (fun c => c == '\r' || c == '\n') = parts.code := by
    refine @dropWhile_append_of_starts _ [] parts.code nofun fun c first => ?_
    obtain ⟨noReturn, noFeed⟩ := parts.codeStarts c first
    rw [beq_eq_false_iff_ne.mpr noReturn, beq_eq_false_iff_ne.mpr noFeed]
    rfl
  have noTail : dropTail isWhiteSpace (parts.code ++ []) = parts.code :=
    dropTail_append_of_ends nofun parts.codeEnds
  rw [trimCode, noBreak]
  rwa [List.append_nil] at noTail

theorem read_write (parts : ExampleParts) :
    PropertyTag.codeExample.read ⟨none⟩ parts.write = .ok (.addExample parts.sample) := by
  refine PropertyTag.read_eq_ok_iff.mpr (Option.map_eq_some_iff.mpr ⟨_, ?_, rfl⟩)
  rw [example?_of_showsCode parts.showsCode_write parts.heads_heading parts.titled, exampleOf,
    parts.trimCode_code, render_space_cons parts.trimmed, sample]

end ExampleParts

/-! ### Reading back -/

/-- Whatever the parts of a parameter, a return value or an example are, the text that puts them in
order is read as exactly these parts. -/
theorem read_written_values :
    (∀ parts : ParamParts,
      PropertyTag.param.read ⟨none⟩ parts.write = .ok (.addParam parts.param)) ∧
    (∀ parts : ReturnParts,
      PropertyTag.returns.read ⟨none⟩ parts.write =
        .ok (.set .returns (.returns parts.returnValue))) ∧
    ∀ parts : ExampleParts,
      PropertyTag.codeExample.read ⟨none⟩ parts.write = .ok (.addExample parts.sample) :=
  ⟨ParamParts.read_write, ReturnParts.read_write, ExampleParts.read_write⟩

/-- A description may begin as a type or with a hyphen, a return value may have no description, and
a title may end as a language does. -/
theorem read_written_values_alike :
    PropertyTag.param.read ⟨none⟩ "été=-1 \x7bMap\x7bint\x7d\x7d - - \x7bx\x7d".toList =
      .ok (.addParam ⟨"été", some "-1", false, some ⟨"Map\x7bint\x7d", none⟩, "- \x7bx\x7d"⟩) ∧
    PropertyTag.param.read ⟨none⟩ "_... - \x7bx\x7d".toList =
      .ok (.addParam ⟨"_", none, true, none, "\x7bx\x7d"⟩) ∧
    PropertyTag.returns.read ⟨none⟩ "\x7bint\x7d - ".toList =
      .ok (.set .returns (.returns ⟨some ⟨"int", none⟩, none⟩)) ∧
    PropertyTag.codeExample.read ⟨none⟩ "C #1 #rust \x7bf \x7b\x7d\x7d #2".toList =
      .ok (.addExample ⟨"C #1", some "rust", "f \x7b\x7d", "#2"⟩) := by
  refine ⟨?_, ?_, ?_, ?_⟩
  · exact read_written_values.1
      { name := "été".toList
        suffix := some (.default "-1".toList)
        type := some "Map\x7bint\x7d".toList
        description := "- \x7bx\x7d".toList
        named := by decide
        nameCharacters := List.all_eq_true.mp (by decide +kernel)
        proper := by
          rintro _ ⟨⟩
          exact ⟨by decide, List.all_eq_true.mp rfl, by decide⟩
        balanced := by
          rintro _ ⟨⟩
          decide
        trimmed := by decide }
  · exact read_written_values.1
      { name := "_".toList
        suffix := some .sequenced
        type := none
        description := "\x7bx\x7d".toList
        named := by decide
        nameCharacters := List.all_eq_true.mp (by decide +kernel)
        proper := by
          rintro _ ⟨⟩
          trivial
        balanced := nofun
        trimmed := by decide }
  · exact read_written_values.2.1
      { type := "int".toList
        description := []
        balanced := by decide
        trimmed := by decide }
  · exact read_written_values.2.2
      { title := "C #1".toList
        language := some "rust".toList
        code := "f \x7b\x7d".toList
        description := "#2".toList
        titled := by decide
        trimmedTitle := by decide
        titleBeforeCode := by decide
        languageNamed := by
          rintro _ ⟨⟩
          decide
        languageWord := by
          rintro _ ⟨⟩
          decide
        languageBeforeCode := by
          rintro _ ⟨⟩
          decide
        noLanguage := nofun
        balanced := by decide
        codeStarts := by decide
        codeEnds := by decide
        trimmed := by decide }

end DocComments.TagValue
