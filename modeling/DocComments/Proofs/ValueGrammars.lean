/-
This file proves which values the property tags with a grammar take.

Types must stand in braces, and so must the code of an example after its title; a return value is
read if it has a type, and is null otherwise; a parameter has a name, perhaps with a suffix, that
ends at a separator or a brace. Values that are written so are taken, and every other value is
refused as malformed, but for return values, where nothing is refused. What a value is read as
follows from its parts alone, so the same lemmas say what is read.
-/

import DocComments.Proofs.Refusals
import DocComments.Proofs.ValueParts

namespace DocComments

/-! ### Reading a value -/

/-- What a property tag makes of its value: a change, or the diagnostic of a value that it does not
take. -/
def PropertyTag.read (tag : PropertyTag) (style : TextStyle) (value : List Char) :
    Except Diagnostic AttributeChange :=
  match TagValue.change? tag style value with
  | some change => .ok change
  | none => .error (Rejection.malformedDiagnostic tag)

/-- A block takes in the change that a property tag reads, or is refused with its diagnostic. -/
theorem Classifier.collect_of_property {classifier : Classifier} {segment : Segment}
    {tag : PropertyTag} (property : classifier.IsPropertyTag segment tag) (index : Nat)
    (element : Option ElementTag) (attributes : Attributes) (segments : List Segment) :
    classifier.collect index element attributes (segment :: segments) =
      match tag.read classifier.style segment.value with
      | .ok change =>
        classifier.collect (index + 1) element (AttributeChange.apply attributes change) segments
      | .error diagnostic => .error ⟨diagnostic, [(index, "malformed value")]⟩ := by
  rw [collect, property.1]
  simp only
  rw [property.2, PropertyTag.read]
  simp only
  cases TagValue.change? tag classifier.style segment.value with
  | none => rfl
  | some change => rfl

namespace PropertyTag

variable {tag : PropertyTag} {style : TextStyle} {value : List Char} {change : AttributeChange}

theorem read_eq_ok_iff : tag.read style value = .ok change ↔
    TagValue.change? tag style value = some change := by
  rw [read]
  cases TagValue.change? tag style value with
  | none => exact iff_of_false nofun nofun
  | some own => rw [Except.ok.injEq, Option.some.injEq]

/-- A value that is not taken is refused as malformed. -/
theorem read_of_not_ok (refused : ¬ ∃ change, tag.read style value = .ok change) :
    tag.read style value = .error (Rejection.malformedDiagnostic tag) := by
  cases result : TagValue.change? tag style value with
  | none => rw [read, result]
  | some change => exact absurd ⟨change, read_eq_ok_iff.mpr result⟩ refused

theorem exists_read_iff_of_map {Parsed : Type} {make : Parsed → AttributeChange}
    {parsed? : Option Parsed} (reads : TagValue.change? tag style value = parsed?.map make) :
    (∃ change, tag.read style value = .ok change) ↔ ∃ parsed, parsed? = some parsed := by
  simp only [read_eq_ok_iff, reads, Option.map_eq_some_iff]
  constructor
  · rintro ⟨_, parsed, found, -⟩
    exact ⟨parsed, found⟩
  · rintro ⟨parsed, found⟩
    exact ⟨_, parsed, found, rfl⟩

end PropertyTag

namespace TagValue

open Text

variable {style : TextStyle} {value : List Char}

/-! ### Parameters -/

/-- The parameter of a name with its suffix, where the rest of the value follows these. -/
def paramOf (style : TextStyle) (name : List Char) (suffix : Option ParamSuffix)
    (rest : List Char) : Param :=
  { name := String.ofList name
    default := match suffix with
      | some (.default value) => some (String.ofList value)
      | _ => none
    sequenced := suffix == some .sequenced
    type := (optionalType (skipSeparators rest)).1.map typeRef
    description := style.render (descriptionAfter (optionalType (skipSeparators rest)).2) }

theorem default_or_sequenced (style : TextStyle) (name : List Char) (suffix : Option ParamSuffix)
    (rest : List Char) :
    (paramOf style name suffix rest).default = none ∨
      (paramOf style name suffix rest).sequenced = false := by
  cases suffix with
  | none => exact .inl rfl
  | some suffix =>
    cases suffix with
    | sequenced => exact .inl rfl
    | default value => exact .inr rfl

theorem follows_iff {rest : List Char} :
    (atBreak rest || rest.head? == some '{') = true ↔ Starts FollowsName rest := by
  cases rest with
  | nil => exact iff_of_true rfl (starts_nil _)
  | cons c rest => simp [atBreak, starts_cons_iff, FollowsName]

theorem isSeparator_of_isNameCharacter {c : Char} (inName : isNameCharacter c = true) :
    isSeparator c = false := by
  by_contra separates
  rw [Bool.not_eq_false] at separates
  simp only [isSeparator, Bool.or_eq_true_iff, beq_iff_eq] at separates
  rcases separates with ((rfl | rfl) | rfl) | rfl <;> exact absurd inName (by decide +kernel)

theorem param?_eq (style : TextStyle) (value : List Char) : param? style value =
    if ((skipSeparators value).takeWhile isNameCharacter).isEmpty ||
        !(atBreak (readSuffix ((skipSeparators value).dropWhile isNameCharacter)).2 ||
          (readSuffix ((skipSeparators value).dropWhile isNameCharacter)).2.head? == some '{') then
      none
    else
      some (paramOf style ((skipSeparators value).takeWhile isNameCharacter)
        (readSuffix ((skipSeparators value).dropWhile isNameCharacter)).1
        (readSuffix ((skipSeparators value).dropWhile isNameCharacter)).2) := rfl

theorem param?_of_namesParam {name rest : List Char} {suffix : Option ParamSuffix}
    (names : NamesParam value name suffix rest) (style : TextStyle) :
    param? style value = some (paramOf style name suffix rest) := by
  obtain ⟨gap, written, rfl, inGap, run, writes, ended⟩ := names
  have noGap : Starts (isSeparator · = false) (name ++ (written ++ rest)) := by
    obtain ⟨c, name, rfl⟩ := List.exists_cons_of_ne_nil run.nonempty
    exact starts_cons_iff.mpr (isSeparator_of_isNameCharacter (run.inside c List.mem_cons_self))
  rw [param?_eq, skipSeparators_append inGap noGap, takeWhile_append_of_starts run.inside run.ended,
    dropWhile_append_of_starts run.inside run.ended, readSuffix_append writes ended, if_neg]
  rw [follows_iff.mpr ended, Bool.not_true, Bool.or_false, List.isEmpty_iff]
  exact run.nonempty

theorem exists_namesParam_of_param? {param : Param} (found : param? style value = some param) :
    ∃ name suffix rest, NamesParam value name suffix rest ∧
      param = paramOf style name suffix rest := by
  rw [param?_eq] at found
  obtain ⟨proper, same⟩ := Option.ite_none_left_eq_some.mp found
  obtain ⟨nonempty, ended⟩ := not_or.mp (mt Bool.or_eq_true_iff.mpr proper)
  obtain ⟨gap, whole, inGap, -⟩ := exists_gap value
  obtain ⟨written, afterName, writes⟩ := exists_written_of_readSuffix
    (Prod.eta (readSuffix ((skipSeparators value).dropWhile isNameCharacter))).symm
  refine ⟨_, _, _, ⟨gap, written, ?_, inGap, ⟨?_, ?_, ?_⟩, writes, ?_⟩, (Option.some.inj same).symm⟩
  · rw [← afterName, List.takeWhile_append_dropWhile]
    exact whole
  · exact mt List.isEmpty_iff.mpr nonempty
  · exact fun c => List.mem_takeWhile_imp
  · rw [← afterName]
    exact starts_dropWhile isNameCharacter _
  · rw [Bool.not_eq_true', Bool.not_eq_false] at ended
    exact follows_iff.mp ended

/-! ### Examples -/

/-- A value that has a heading, a balanced text in braces and a rest. -/
structure ShowsCode (value heading code rest : List Char) : Prop where
  whole : value = heading ++ '{' :: (code ++ '}' :: rest)
  beforeCode : '{' ∉ heading
  balanced : Balanced code

theorem ShowsCode.parts {heading code rest : List Char}
    (shows : ShowsCode value heading code rest) :
    value.takeWhile (· != '{') = heading ∧
      value.dropWhile (· != '{') = '{' :: (code ++ '}' :: rest) := by
  have inside : ∀ c ∈ heading, (c != '{') = true := fun c member => by
    rw [bne_iff_ne]
    exact fun same => shows.beforeCode (same ▸ member)
  have ended : Starts (fun c => (c != '{') = false) ('{' :: (code ++ '}' :: rest)) :=
    starts_cons_iff.mpr rfl
  rw [shows.whole]
  exact ⟨takeWhile_append_of_starts inside ended, dropWhile_append_of_starts inside ended⟩

theorem showsCode_of_braced? {code rest : List Char}
    (found : braced? (value.dropWhile (· != '{')) = some (code, rest)) :
    ShowsCode value (value.takeWhile (· != '{')) code rest := by
  obtain ⟨afterHeading, balanced⟩ := braced?_eq_some_iff.mp found
  refine ⟨?_, fun member => ?_, balanced⟩
  · rw [← afterHeading, List.takeWhile_append_dropWhile]
  · exact absurd (List.mem_takeWhile_imp member) (by simp)

/-- The example of a heading, code and a rest. -/
def exampleOf (style : TextStyle) (title : List Char) (language : Option (List Char))
    (code rest : List Char) : Example :=
  { title := String.ofList title
    language := language.map String.ofList
    code := String.ofList (trimCode code)
    description := style.render rest }

theorem example?_of_showsCode {heading code rest title : List Char}
    {language : Option (List Char)} (shows : ShowsCode value heading code rest)
    (heads : Heads heading title language) (titled : title ≠ []) (style : TextStyle) :
    example? style value = some (exampleOf style title language code rest) := by
  have found : braced? (value.dropWhile (· != '{')) = some (code, rest) :=
    braced?_eq_some_iff.mpr ⟨shows.parts.2, shows.balanced⟩
  unfold example?
  simp only [found, shows.parts.1, heads.splitLanguage_eq]
  exact if_neg (mt List.isEmpty_iff.mp titled)

theorem exists_showsCode_of_example? {sample : Example}
    (found : example? style value = some sample) :
    ∃ heading code rest title language, ShowsCode value heading code rest ∧
      Heads heading title language ∧ title ≠ [] ∧
      sample = exampleOf style title language code rest := by
  unfold example? at found
  obtain ⟨⟨code, rest⟩, braced, made⟩ := Option.bind_eq_some_iff.mp found
  obtain ⟨titled, same⟩ := Option.ite_none_left_eq_some.mp made
  exact ⟨_, code, rest, _, _, showsCode_of_braced? braced, heads_splitLanguage _,
    mt List.isEmpty_iff.mpr titled, (Option.some.inj same).symm⟩

/-! ### Return values -/

theorem returnValue?_of_inBraces {body rest : List Char} (inBraces : InBraces value body rest)
    (style : TextStyle) :
    returnValue? style value = some ⟨some (typeRef body),
      if (style.render (descriptionAfter rest)).isEmpty then none
      else some (style.render (descriptionAfter rest))⟩ := by
  unfold returnValue?
  rw [braced?_skipSeparators_iff.mpr inBraces]
  rfl

theorem exists_inBraces_of_returnValue? {result : ReturnValue}
    (found : returnValue? style value = some result) : ∃ body rest, InBraces value body rest := by
  unfold returnValue? at found
  obtain ⟨⟨body, rest⟩, braced, -⟩ := Option.bind_eq_some_iff.mp found
  exact ⟨body, rest, braced?_skipSeparators_iff.mp braced⟩

end TagValue

/-! ### The languages of the tags -/

namespace PropertyTag

open TagValue Text

variable {style : TextStyle} {value : List Char}

theorem exists_read_type_iff {tag : PropertyTag} (isType : tag ∈ [valtype, inherits]) :
    (∃ change, tag.read style value = .ok change) ↔
      ∃ body rest, InBraces value body rest ∧ Starts (isSeparator · = true) rest := by
  rw [List.mem_pair] at isType
  rcases isType with rfl | rfl
  all_goals
    rw [exists_read_iff_of_map rfl]
    exact exists_congr fun body => typeAnnotation?_eq_some_iff

theorem read_returns : returns.read style value =
    .ok (.set .returns (.ofReturn? (returnValue? style value))) := rfl

theorem isReturn_iff : (∃ result, AttributeValue.ofReturn? (returnValue? style value) =
    .returns result) ↔ ∃ body rest, InBraces value body rest := by
  constructor
  · rintro ⟨result, same⟩
    cases found : returnValue? style value with
    | none =>
      rw [found] at same
      cases same
    | some own => exact exists_inBraces_of_returnValue? found
  · rintro ⟨body, rest, inBraces⟩
    rw [returnValue?_of_inBraces inBraces]
    exact ⟨_, rfl⟩

theorem exists_read_param_iff : (∃ change, param.read style value = .ok change) ↔
    ∃ name suffix rest, NamesParam value name suffix rest := by
  rw [exists_read_iff_of_map rfl]
  constructor
  · rintro ⟨result, found⟩
    obtain ⟨name, suffix, rest, names, -⟩ := exists_namesParam_of_param? found
    exact ⟨name, suffix, rest, names⟩
  · rintro ⟨name, suffix, rest, names⟩
    exact ⟨_, param?_of_namesParam names style⟩

theorem exists_read_example_iff : (∃ change, codeExample.read style value = .ok change) ↔
    ∃ heading code rest title language, ShowsCode value heading code rest ∧
      Heads heading title language ∧ title ≠ [] := by
  rw [exists_read_iff_of_map rfl]
  constructor
  · rintro ⟨sample, found⟩
    obtain ⟨heading, code, rest, title, language, shows, heads, titled, -⟩ :=
      exists_showsCode_of_example? found
    exact ⟨heading, code, rest, title, language, shows, heads, titled⟩
  · rintro ⟨heading, code, rest, title, language, shows, heads, titled⟩
    exact ⟨_, example?_of_showsCode shows heads titled style⟩

/-- Each of these tags takes exactly the values of its grammar. A type is a balanced text in braces
that a separator or nothing follows. Every return value is taken, and is null unless it begins with
a balanced text in braces. A parameter begins with a name and its suffix, and is never both given a
default and sequenced. An example has a heading before its code, with something in it besides the
language. All other values of tags but return values are refused as malformed. -/
theorem read_accepts_exactly (style : TextStyle) (value : List Char) :
    (∀ tag ∈ [valtype, inherits], (∃ change, tag.read style value = .ok change) ↔
      ∃ body rest, InBraces value body rest ∧ Starts (isSeparator · = true) rest) ∧
    (∃ answer, returns.read style value = .ok (.set .returns answer) ∧
      ((∃ result, answer = .returns result) ↔ ∃ body rest, InBraces value body rest) ∧
      (answer = .null ↔ ¬ ∃ body rest, InBraces value body rest)) ∧
    ((∃ change, param.read style value = .ok change) ↔
      ∃ name suffix rest, NamesParam value name suffix rest) ∧
    (∀ change, param.read style value = .ok change →
      ∃ result, change = .addParam result ∧ (result.default = none ∨ result.sequenced = false)) ∧
    ((∃ change, codeExample.read style value = .ok change) ↔
      ∃ heading code rest title language, ShowsCode value heading code rest ∧
        Heads heading title language ∧ title ≠ []) ∧
    ∀ tag ∈ [valtype, inherits, param, codeExample],
      (¬ ∃ change, tag.read style value = .ok change) →
        ∃ diagnostic, tag.read style value = .error diagnostic ∧
          diagnostic.code.map Code.text = some "E104" := by
  refine ⟨fun tag isType => exists_read_type_iff isType, ⟨_, read_returns, isReturn_iff, ?_⟩,
    exists_read_param_iff, fun change reads => ?_, exists_read_example_iff,
    fun tag _ refused => ⟨_, read_of_not_ok refused, rfl⟩⟩
  · rw [← @isReturn_iff style value]
    cases returnValue? style value with
    | none => exact iff_of_true rfl fun ⟨result, same⟩ => nomatch same
    | some result => exact iff_of_false nofun fun none => none ⟨result, rfl⟩
  · obtain ⟨result, found, rfl⟩ := Option.map_eq_some_iff.mp (read_eq_ok_iff.mp reads)
    obtain ⟨name, suffix, rest, -, rfl⟩ := exists_namesParam_of_param? found
    exact ⟨_, rfl, default_or_sequenced style name suffix rest⟩

/-- Braces may be nested in a type, but nothing may touch it; a default may end where the braces of
a type begin; and a heading needs more than a language. -/
theorem read_accepts_exactly_edges :
    (∃ change, valtype.read ⟨none⟩ "\t\x7ba\x7bb\x7d\x7d x".toList = .ok change) ∧
    (∃ result, param.read ⟨none⟩ "x=1\x7bint\x7d".toList = .ok (.addParam result) ∧
      (result.default = none ∨ result.sequenced = false)) ∧
    (∃ diagnostic, valtype.read ⟨none⟩ "\x7bint\x7dx".toList = .error diagnostic ∧
      diagnostic.code.map Code.text = some "E104") ∧
    (∃ diagnostic, codeExample.read ⟨none⟩ "#rust \x7bx\x7d".toList = .error diagnostic ∧
      diagnostic.code.map Code.text = some "E104") := by
  refine ⟨?_, ?_, ?_, ?_⟩
  · have inBraces : InBraces "\t\x7ba\x7bb\x7d\x7d x".toList "a\x7bb\x7d".toList " x".toList :=
      ⟨"\t".toList, rfl, List.all_eq_true.mp rfl, by decide⟩
    exact ((read_accepts_exactly ⟨none⟩ _).1 valtype (by decide)).mpr
      ⟨_, _, inBraces, starts_cons_iff.mpr rfl⟩
  · have reads : param.read ⟨none⟩ "x=1\x7bint\x7d".toList =
        .ok (.addParam ⟨"x", some "1", false, some ⟨"int", none⟩, ""⟩) := by
      decide +kernel
    obtain ⟨result, same, notBoth⟩ := (read_accepts_exactly ⟨none⟩ _).2.2.2.1 _ reads
    exact ⟨result, same ▸ reads, notBoth⟩
  · have refused : valtype.read ⟨none⟩ "\x7bint\x7dx".toList =
        .error (Rejection.malformedDiagnostic valtype) := by
      decide +kernel
    refine (read_accepts_exactly ⟨none⟩ _).2.2.2.2.2 valtype (by decide) ?_
    rw [refused]
    exact nofun
  · have refused : codeExample.read ⟨none⟩ "#rust \x7bx\x7d".toList =
        .error (Rejection.malformedDiagnostic codeExample) := by
      decide +kernel
    refine (read_accepts_exactly ⟨none⟩ _).2.2.2.2.2 codeExample (by decide) ?_
    rw [refused]
    exact nofun

end PropertyTag

end DocComments
