/-
This file proves what a type shows and which element it refers to.

A reference begins at an opening brace with a number sign and ends at the next closing brace. So a
text falls into plain texts and paths by turns: no plain text with a path behind it has another
beginning of a reference in it, no path has a closing brace in it, and what stands behind the last
path has no beginning that is closed again. Every text falls apart in this way, and in no other. Two
beginnings never overlap, since a brace is not a number sign, so a brace right before a reference is
plain text; and a path goes on to its closing brace, whatever begins inside of it.

The type shows the plain texts and the paths, and it refers to the first path. White space around
the text is not part of it.
-/

import DocComments.Proofs.CommentEnds
import DocComments.Proofs.ValueParts

namespace DocComments

/-! ### Cuts at the first place -/

namespace Text

variable {first second target : Char} {text before after : List Char}

theorem splitFirst?_eq_some_iff :
    splitFirst? target text = some (before, after) ↔
      text = before ++ target :: after ∧ target ∉ before := by
  induction text generalizing before with
  | nil => exact iff_of_false nofun fun ⟨parts, _⟩ => by simp at parts
  | cons c rest inductionHypothesis =>
    rw [splitFirst?]
    by_cases here : c = target
    · subst here
      rw [if_pos (beq_self_eq_true c)]
      cases before with
      | nil => simp [eq_comm]
      | cons d before =>
        refine iff_of_false nofun fun ⟨parts, absent⟩ => ?_
        exact absent ((List.cons.inj parts).1 ▸ List.mem_cons_self)
    · rw [if_neg (mt beq_iff_eq.mp here), Option.map_eq_some_iff]
      constructor
      · rintro ⟨⟨earlier, later⟩, found, same⟩
        cases same
        obtain ⟨rfl, absent⟩ := inductionHypothesis.mp found
        exact ⟨rfl, mt List.mem_cons.mp (not_or.mpr ⟨Ne.symm here, absent⟩)⟩
      · rintro ⟨parts, absent⟩
        cases before with
        | nil => exact absurd (List.cons.inj parts).1 here
        | cons d before =>
          obtain ⟨rfl, tail⟩ := List.cons.inj parts
          have found := inductionHypothesis.mpr ⟨tail, mt (List.mem_cons_of_mem c) absent⟩
          exact ⟨(before, after), found, rfl⟩

theorem isChain_apart_iff :
    text.IsChain (Apart first second) ↔ ¬ [first, second] <:+: text := by
  rw [List.isChain_iff_forall_rel_of_append_cons_cons]
  constructor
  · rintro apart ⟨before, after, rfl⟩
    exact apart (List.append_assoc before _ after) ⟨rfl, rfl⟩
  · rintro without c d before after rfl ⟨rfl, rfl⟩
    exact without ⟨before, after, List.append_assoc before _ after⟩

theorem splitFirstPair?_cons (c : Char) (text : List Char) :
    splitFirstPair? first second (c :: text) =
      if c = first ∧ text.head? = some second then some ([], text.tail) else
        (splitFirstPair? first second text).map fun (before, after) => (c :: before, after) := by
  cases text with
  | nil => simp [splitFirstPair?]
  | cons d rest => simp [splitFirstPair?]

/-- Where a pair stands, the first pair is found, and it is not behind this one. -/
theorem exists_splitFirstPair? (before after : List Char) :
    ∃ earlier rest, splitFirstPair? first second (before ++ first :: second :: after) =
      some (earlier, rest) ∧ after <:+ rest := by
  induction before with
  | nil =>
    rw [List.nil_append, splitFirstPair?_cons, if_pos ⟨rfl, rfl⟩]
    exact ⟨[], after, rfl, List.suffix_rfl⟩
  | cons c before inductionHypothesis =>
    obtain ⟨earlier, rest, found, behind⟩ := inductionHypothesis
    rw [List.cons_append, splitFirstPair?_cons]
    split
    · refine ⟨[], _, rfl, ?_⟩
      cases before with
      | nil => exact List.suffix_cons second after
      | cons d before => exact ⟨before ++ [first, second], List.append_assoc before _ after⟩
    · rw [found]
      exact ⟨c :: earlier, rest, rfl, behind⟩

theorem splitFirstPair?_eq_some_iff (differs : first ≠ second) :
    splitFirstPair? first second text = some (before, after) ↔
      text = before ++ first :: second :: after ∧ ¬ [first, second] <:+: before := by
  constructor
  · intro cut
    obtain ⟨parts, apart⟩ := eq_append_of_splitFirstPair? cut
    exact ⟨parts, isChain_apart_iff.mp apart.left_of_append⟩
  · rintro ⟨rfl, without⟩
    induction before with
    | nil => rw [List.nil_append, splitFirstPair?_cons, if_pos ⟨rfl, rfl⟩, List.tail_cons]
    | cons c before inductionHypothesis =>
      have noneEarlier : ¬ [first, second] <:+: before := fun inside =>
        without (inside.trans (List.suffix_cons c before).isInfix)
      have notHere : ¬ (c = first ∧ (before ++ first :: second :: after).head? = some second) := by
        rintro ⟨rfl, next⟩
        cases before with
        | nil => exact differs (Option.some.inj next)
        | cons d before =>
          obtain rfl := Option.some.inj next
          exact without ⟨[], before, rfl⟩
      rw [List.cons_append, splitFirstPair?_cons, if_neg notHere, inductionHypothesis noneEarlier]
      rfl

/-! ### Trimming -/

/-- A text is what trimming leaves of it, with white space on both sides. -/
theorem exists_trim (text : List Char) :
    ∃ before after, text = before ++ trim text ++ after ∧
      (∀ c ∈ before, isWhiteSpace c = true) ∧ (∀ c ∈ after, isWhiteSpace c = true) ∧
      Trimmed (trim text) := by
  have isTrim : trim text = (text.dropWhile isWhiteSpace).rdropWhile isWhiteSpace := rfl
  rw [isTrim]
  refine ⟨text.takeWhile isWhiteSpace, (text.dropWhile isWhiteSpace).rtakeWhile isWhiteSpace, ?_,
    fun c => List.mem_takeWhile_imp, fun c => List.mem_rtakeWhile_imp, ?_, ?_⟩
  · rw [List.append_assoc, List.rdropWhile_append_rtakeWhile, List.takeWhile_append_dropWhile]
  · intro c isFirst
    obtain ⟨after, parts⟩ := List.rdropWhile_prefix isWhiteSpace (l := text.dropWhile isWhiteSpace)
    refine starts_dropWhile isWhiteSpace text c ?_
    rw [← parts, List.head?_append, isFirst, Option.some_or]
  · intro c isLast
    have nonempty := List.ne_nil_of_mem (List.mem_of_getLast? isLast)
    obtain rfl := (List.getLast_eq_iff_getLast?_eq_some nonempty).mpr isLast
    exact Bool.eq_false_iff.mpr (List.rdropWhile_last_not isWhiteSpace _ nonempty)

theorem trim_append (spaceBefore : ∀ c ∈ before, isWhiteSpace c = true)
    (spaceAfter : ∀ c ∈ after, isWhiteSpace c = true) :
    trim (before ++ text ++ after) = trim text := by
  obtain ⟨front, back, parts, inFront, inBack, trimmed⟩ := exists_trim text
  have whole : before ++ text ++ after =
      (before ++ front) ++ trim text ++ (back ++ after) := by
    conv_lhs => rw [parts]
    simp only [List.append_assoc]
  rw [whole]
  exact trim_of_trimmed trimmed (List.forall_mem_append.mpr ⟨spaceBefore, inFront⟩)
    (List.forall_mem_append.mpr ⟨inBack, spaceAfter⟩)

theorem trim_eq_self (trimmed : Trimmed text) : trim text = text := by
  have trims := @trim_of_trimmed [] text [] trimmed nofun nofun
  rwa [List.nil_append, List.append_nil] at trims

end Text

namespace TagValue

open Text

/-! ### The first reference -/

/-- The text has an opening brace with a number sign, and a closing brace somewhere after them. -/
def HasReference (text : List Char) : Prop :=
  ∃ before path after, text = before ++ '{' :: '#' :: (path ++ '}' :: after)

theorem splitReference?_eq_some_iff {text before path after : List Char} :
    splitReference? text = some (before, path, after) ↔
      text = before ++ '{' :: '#' :: (path ++ '}' :: after) ∧
        ¬ ['{', '#'] <:+: before ∧ '}' ∉ path := by
  have differ : '{' ≠ '#' := by decide
  constructor
  · intro found
    obtain ⟨⟨earlier, rest⟩, opened, found⟩ := Option.bind_eq_some_iff.mp found
    obtain ⟨⟨own, later⟩, closed, same⟩ := Option.bind_eq_some_iff.mp found
    cases same
    obtain ⟨rfl, clear⟩ := (splitFirstPair?_eq_some_iff differ).mp opened
    obtain ⟨rfl, within⟩ := splitFirst?_eq_some_iff.mp closed
    exact ⟨rfl, clear, within⟩
  · rintro ⟨rfl, clear, within⟩
    rw [splitReference?, (splitFirstPair?_eq_some_iff differ).mpr ⟨rfl, clear⟩]
    simp only [Option.bind_eq_bind, Option.bind_some,
      splitFirst?_eq_some_iff.mpr ⟨rfl, within⟩, Option.pure_def]

/-- No reference is found if and only if there is none: the first beginning of a reference is not
behind any other, so what closes another one closes it too. -/
theorem splitReference?_eq_none_iff {text : List Char} :
    splitReference? text = none ↔ ¬ HasReference text := by
  constructor
  · rintro notFound ⟨before, path, after, rfl⟩
    obtain ⟨earlier, rest, opened, behind⟩ :=
      @exists_splitFirstPair? '{' '#' before (path ++ '}' :: after)
    have closing : '}' ∈ rest := behind.subset (List.mem_append_right _ List.mem_cons_self)
    obtain ⟨own, later, rfl, within⟩ := List.eq_append_cons_of_mem closing
    rw [splitReference?, opened] at notFound
    simp only [Option.bind_eq_bind, Option.bind_some,
      splitFirst?_eq_some_iff.mpr ⟨rfl, within⟩] at notFound
    cases notFound
  · intro noReference
    refine Option.eq_none_iff_forall_ne_some.mpr fun ⟨before, path, after⟩ found => ?_
    exact noReference ⟨before, path, after, (splitReference?_eq_some_iff.mp found).1⟩

instance (text : List Char) : Decidable (HasReference text) :=
  decidable_of_iff (splitReference? text ≠ none) (not_iff_comm.mp splitReference?_eq_none_iff.symm)

/-! ### Plain texts and paths -/

/-- A plain text and the path that is referred to behind it. No reference begins in the plain text,
and none ends in the path. -/
@[ext]
structure Reference where
  plain : List Char
  path : List Char
  clear : ¬ ['{', '#'] <:+: plain
  within : '}' ∉ path

namespace Reference

/-- The plain text and the path with its marks. -/
def write (reference : Reference) : List Char :=
  reference.plain ++ '{' :: '#' :: (reference.path ++ ['}'])

/-- The plain text and the path without marks. -/
def shown (reference : Reference) : List Char :=
  reference.plain ++ reference.path

end Reference

/-- References, each behind its plain text, and a last text with no reference in it. -/
@[ext]
structure ReferringText where
  references : List Reference
  last : List Char
  clear : ¬ HasReference last

namespace ReferringText

/-- The parts in order, with the marks of references. -/
def write (parts : ReferringText) : List Char :=
  parts.references.flatMap Reference.write ++ parts.last

/-- The parts in order, without marks. -/
def shown (parts : ReferringText) : List Char :=
  parts.references.flatMap Reference.shown ++ parts.last

/-- The path of the first reference. -/
def target? (parts : ReferringText) : Option (List Char) :=
  parts.references.head?.map Reference.path

/-- One more reference in front. -/
def cons (reference : Reference) (parts : ReferringText) : ReferringText :=
  { parts with references := reference :: parts.references }

theorem references_cons (reference : Reference) (parts : ReferringText) :
    (parts.cons reference).references = reference :: parts.references := rfl

theorem write_cons (reference : Reference) (parts : ReferringText) :
    (parts.cons reference).write = reference.write ++ parts.write := by
  rw [write, references_cons, List.flatMap_cons, List.append_assoc]
  rfl

theorem shown_cons (reference : Reference) (parts : ReferringText) :
    (parts.cons reference).shown = reference.shown ++ parts.shown := by
  rw [shown, references_cons, List.flatMap_cons, List.append_assoc]
  rfl

/-- A text without references, and then one reference more in front each time. -/
@[elab_as_elim, induction_eliminator]
theorem induct {motive : ReferringText → Prop}
    (plain : ∀ last clear, motive ⟨[], last, clear⟩)
    (cons : ∀ reference parts, motive parts → motive (cons reference parts))
    (parts : ReferringText) : motive parts := by
  obtain ⟨references, last, clear⟩ := parts
  induction references with
  | nil => exact plain last clear
  | cons reference references inductionHypothesis =>
    exact cons reference ⟨references, last, clear⟩ inductionHypothesis

/-! ### Taking a text apart -/

theorem splitReference?_write_plain {last : List Char} (clear : ¬ HasReference last) :
    splitReference? (write ⟨[], last, clear⟩) = none :=
  splitReference?_eq_none_iff.mpr clear

theorem splitReference?_write_cons (reference : Reference) (parts : ReferringText) :
    splitReference? (parts.cons reference).write =
      some (reference.plain, reference.path, parts.write) :=
  splitReference?_eq_some_iff.mpr
    ⟨by simp [write_cons, Reference.write], reference.clear, reference.within⟩

theorem exists_write_eq (text : List Char) : ∃ parts : ReferringText, parts.write = text := by
  induction size : text.length using Nat.strong_induction_on generalizing text with
  | h count inductionHypothesis =>
    cases found : splitReference? text with
    | none => exact ⟨⟨[], text, splitReference?_eq_none_iff.mp found⟩, rfl⟩
    | some cut =>
      obtain ⟨plain, path, after⟩ := cut
      obtain ⟨rfl, clear, within⟩ := splitReference?_eq_some_iff.mp found
      have shorter : after.length < count := by
        rw [← size]
        simp only [List.length_append, List.length_cons]
        omega
      obtain ⟨parts, rfl⟩ := inductionHypothesis _ shorter after rfl
      refine ⟨parts.cons ⟨plain, path, clear, within⟩, ?_⟩
      simp [write_cons, Reference.write]

theorem write_injective : Function.Injective write := by
  intro parts others same
  -- The first reference is found in the text, so both begin with the same one.
  have found := congrArg splitReference? same
  induction parts generalizing others with
  | plain last clear =>
    cases others using induct with
    | plain otherLast otherClear => exact ReferringText.ext rfl same
    | cons other others =>
      rw [splitReference?_write_plain, splitReference?_write_cons] at found
      cases found
  | cons reference parts inductionHypothesis =>
    cases others using induct with
    | plain otherLast otherClear =>
      rw [splitReference?_write_plain, splitReference?_write_cons] at found
      cases found
    | cons other others =>
      rw [splitReference?_write_cons, splitReference?_write_cons, Option.some.injEq,
        Prod.mk.injEq, Prod.mk.injEq] at found
      obtain ⟨plain, path, rest⟩ := found
      rw [Reference.ext plain path, inductionHypothesis rest (congrArg splitReference? rest)]

/-- A text falls into plain texts and paths in exactly one way. -/
theorem existsUnique_write (text : List Char) :
    ∃! parts : ReferringText, parts.write = text := by
  obtain ⟨parts, rfl⟩ := exists_write_eq text
  exact ⟨parts, rfl, fun _ same => write_injective same⟩

/-! ### What is shown -/

theorem showReferences_write (parts : ReferringText) {bound : Nat}
    (enough : parts.references.length ≤ bound) :
    showReferences bound parts.write = (parts.shown, parts.references.map Reference.path) := by
  induction parts generalizing bound with
  | plain last clear =>
    cases bound with
    | zero => rfl
    | succ bound =>
      rw [showReferences, splitReference?_write_plain]
      rfl
  | cons reference parts inductionHypothesis =>
    cases bound with
    | zero => cases enough
    | succ bound =>
      have rest := inductionHypothesis (Nat.le_of_succ_le_succ enough)
      rw [showReferences, splitReference?_write_cons]
      simp only [rest, shown_cons, Reference.shown, references_cons, List.map_cons]

/-- Every reference takes up characters. -/
theorem length_references_le (parts : ReferringText) :
    parts.references.length ≤ parts.write.length := by
  induction parts with
  | plain last clear => exact Nat.zero_le _
  | cons reference parts inductionHypothesis =>
    rw [references_cons, write_cons, Reference.write]
    simp only [List.length_cons, List.length_append]
    omega

end ReferringText

theorem typeRef_of_sign {text path : List Char} (signed : trim text = '#' :: path) :
    typeRef text = ⟨String.ofList path, some (String.ofList path)⟩ := by
  rw [typeRef, signed]
  rfl

theorem typeRef_of_parts {text : List Char} {parts : ReferringText}
    (written : parts.write = trim text) (noSign : (trim text).head? ≠ some '#') :
    typeRef text = ⟨String.ofList parts.shown, parts.target?.map String.ofList⟩ := by
  rw [typeRef]
  split
  · rename_i signed
    rw [signed] at noSign
    exact absurd rfl noSign
  · rw [← written, parts.showReferences_write parts.length_references_le]
    simp only [ReferringText.target?, List.head?_map]

/-- What a type shows and which element it refers to. Every text falls into plain texts and paths in
exactly one way; if it is trimmed and does not start with a number sign, all of them are shown and
the first path is the reference. White space around a text does not matter. -/
theorem typeRef_shows_parts :
    (∀ parts : ReferringText, Trimmed parts.write → parts.write.head? ≠ some '#' →
      typeRef parts.write =
        ⟨String.ofList parts.shown, parts.target?.map String.ofList⟩) ∧
    (∀ text, ∃! parts : ReferringText, parts.write = text) ∧
    ∀ before text after, (∀ c ∈ before, isWhiteSpace c = true) →
      (∀ c ∈ after, isWhiteSpace c = true) →
      typeRef (before ++ text ++ after) = typeRef text := by
  refine ⟨fun parts trimmed noSign => ?_, ReferringText.existsUnique_write,
    fun before text after spaceBefore spaceAfter => ?_⟩
  · have trims := trim_eq_self trimmed
    exact typeRef_of_parts trims.symm (by rwa [trims])
  · rw [typeRef, typeRef, trim_append spaceBefore spaceAfter]

/-- A brace before a reference is plain text, a path may begin a reference again, and a reference
that is not closed is plain text. -/
theorem typeRef_shows_parts_overlapping :
    Trimmed "Array.<\x7b#core.Item\x7d>|\x7b\x7b#\x7b#\x7d\x7b#b".toList ∧
    typeRef ("\t".toList ++ "Array.<\x7b#core.Item\x7d>|\x7b\x7b#\x7b#\x7d\x7b#b".toList ++
        " ".toList) =
      ⟨"Array.<core.Item>|\x7b\x7b#\x7b#b", some "core.Item"⟩ := by
  obtain ⟨shows, -, spaces⟩ := typeRef_shows_parts
  have trimmed : Trimmed "Array.<\x7b#core.Item\x7d>|\x7b\x7b#\x7b#\x7d\x7b#b".toList := by decide
  refine ⟨trimmed, ?_⟩
  rw [spaces _ _ _ (List.all_eq_true.mp rfl) (List.all_eq_true.mp rfl)]
  exact shows
    ⟨[⟨"Array.<".toList, "core.Item".toList, by decide, by decide⟩,
      ⟨">|\x7b".toList, "\x7b#".toList, by decide, by decide⟩], "\x7b#b".toList, by decide⟩
    trimmed (by decide)

end TagValue

end DocComments
