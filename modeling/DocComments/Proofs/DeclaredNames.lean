/-
This file settles which declared names have a path, which path that is, and what stays of the
history.

A name is its leading dots and what comes after them. Cut at its dots, it gives an empty segment
for every leading dot and then the segments of the rest, the first of which is empty only if
nothing comes after the leading dots. So the cut of a name into leading dots, inner segments and
last segment that resolution works on can be read off the written name, and everything else
follows by looking at the number of dots and at the segments.

The history after a name keeps as many entries as the name has leading dots, with one exception:
a relative name with several segments keeps one entry more. That entry stands at the place where
the next deeper name looks for its parent.
-/

import DocComments.Element.History
import DocComments.Proofs.Segments
import Mathlib.Data.List.TakeWhile

namespace DocComments

namespace Text

/-! ### Leading dots -/

/-- The number of dots before anything else in a name. -/
def leadingDots (name : String) : Nat :=
  (name.toList.takeWhile (· == '.')).length

/-- A name without its leading dots. -/
def afterDots (name : String) : String :=
  String.ofList (name.toList.dropWhile (· == '.'))

/-- Dots in a row. -/
def dots (count : Nat) : String :=
  String.ofList (List.replicate count '.')

/-- A name that has no character, or a dot as its last one. -/
def LacksLeaf (name : String) : Prop :=
  name = "" ∨ name.toList.getLast? = some '.'

/-- A name that is well written: after its leading dots stand segments with single dots between
them, at least one, and none of them is empty or has a dot. -/
def WellWritten (name : String) : Prop :=
  ∃ names, names ≠ [] ∧ (∀ segment ∈ names, segment ≠ "" ∧ '.' ∉ segment.toList) ∧
    name = dots (leadingDots name) ++ joinSegments names

theorem takeWhile_dot_eq_replicate (text : List Char) :
    text.takeWhile (· == '.') = List.replicate (text.takeWhile (· == '.')).length '.' := by
  refine List.eq_replicate_iff.mpr ⟨rfl, fun c member => ?_⟩
  have dot := List.mem_takeWhile_imp member
  exact beq_iff_eq.mp dot

theorem dots_append_afterDots (name : String) :
    dots (leadingDots name) ++ afterDots name = name := by
  rw [dots, leadingDots, afterDots, ← takeWhile_dot_eq_replicate, ← String.ofList_append,
    List.takeWhile_append_dropWhile, String.ofList_toList]

theorem afterDots_of_absolute {name : String} (absolute : leadingDots name = 0) :
    afterDots name = name := by
  have whole := dots_append_afterDots name
  rw [absolute] at whole
  exact (String.empty_append).symm.trans whole

theorem head?_afterDots_ne_dot (name : String) : (afterDots name).toList.head? ≠ some '.' := by
  rw [afterDots, String.toList_ofList]
  intro starts
  have refused := List.head?_dropWhile_not (· == '.') name.toList
  rw [starts] at refused
  cases refused

/-! ### The segments of a name -/

theorem splitOn_dot_eq (text : List Char) :
    splitOn '.' text = List.replicate (text.takeWhile (· == '.')).length [] ++
      splitOn '.' (text.dropWhile (· == '.')) := by
  induction text with
  | nil => rfl
  | cons c rest inductionHypothesis =>
    rw [List.takeWhile_cons, List.dropWhile_cons]
    by_cases dot : (c == '.') = true
    · rw [if_pos dot, if_pos dot, splitOn, if_pos dot, inductionHypothesis, List.length_cons,
        List.replicate_succ, List.cons_append]
    · rw [if_neg dot, if_neg dot]
      rfl

/-- Every leading dot cuts off an empty segment. -/
theorem segments_eq_replicate_append (name : String) :
    segments name = List.replicate (leadingDots name) "" ++ segments (afterDots name) := by
  rw [segments, splitOn_dot_eq, List.map_append, List.map_replicate, segments, afterDots,
    String.toList_ofList]
  rfl

theorem joinSegments_cons (first : String) {names : List String} (nonempty : names ≠ []) :
    joinSegments (first :: names) = first ++ "." ++ joinSegments names := by
  obtain ⟨second, others, rfl⟩ := List.exists_cons_of_ne_nil nonempty
  rw [joinSegments, List.map_cons, List.map_cons, joinWith, ← List.map_cons, String.ofList_append,
    String.ofList_append, String.ofList_toList, joinSegments]

theorem segments_eq_singleton_iff {name leaf : String} :
    segments name = [leaf] ↔ name = leaf ∧ '.' ∉ name.toList := by
  constructor
  · intro single
    have dotless : '.' ∉ leaf.toList :=
      dot_notMem_of_mem_segments (single ▸ List.mem_singleton_self leaf)
    have same : name = leaf := by
      rw [← joinSegments_segments name, single]
      exact String.ofList_toList
    exact ⟨same, same ▸ dotless⟩
  · rintro ⟨rfl, dotless⟩
    exact segments_of_dotless dotless

/-- Where several segments come after the leading dots, the first of them is not empty: else
there would be one more leading dot. -/
theorem head_ne_empty_of_segments_afterDots {name first : String} {others : List String}
    (cut : segments (afterDots name) = first :: others) (several : others ≠ []) :
    first ≠ "" := by
  rintro rfl
  have whole := joinSegments_segments (afterDots name)
  rw [cut, joinSegments_cons _ several] at whole
  refine head?_afterDots_ne_dot name ?_
  rw [← whole, String.toList_append, String.toList_append]
  rfl

theorem segments_append_final_dot (path : String) :
    segments (path ++ ".") = segments path ++ [""] := by
  have ending := segments_append_dot path ""
  rw [String.append_empty] at ending
  exact ending

/-- The last segment of a name is empty exactly if the name is empty or ends with a dot. -/
theorem lacksLeaf_iff {name leaf : String} {inner : List String}
    (cut : segments name = inner ++ [leaf]) : LacksLeaf name ↔ leaf = "" := by
  constructor
  · rintro (rfl | ending)
    · have single : inner ++ [leaf] = [] ++ [""] := cut.symm
      exact List.singleton_inj.mp (List.append_inj_right' single rfl)
    · obtain ⟨before, characters⟩ := List.getLast?_eq_some_iff.mp ending
      have dotted : name = String.ofList before ++ "." := by
        rw [← String.ofList_toList (s := name), characters, String.ofList_append]
      rw [dotted, segments_append_final_dot] at cut
      exact (List.singleton_inj.mp (List.append_inj_right' cut rfl)).symm
  · rintro rfl
    by_cases single : inner = []
    · subst single
      exact .inl (segments_eq_singleton_iff.mp cut).1
    · have dotless : ∀ segment ∈ inner, '.' ∉ segment.toList := fun segment member =>
        dot_notMem_of_mem_segments (cut ▸ List.mem_append_left _ member)
      have dotted : name = joinSegments inner ++ "." := by
        refine segments_injective ?_
        rw [cut, segments_append_final_dot, segments_joinSegments single dotless]
      refine .inr ?_
      rw [dotted, String.toList_append, List.getLast?_append]
      rfl

/-- Well written are the names that have no empty segment after their leading dots. -/
theorem wellWritten_iff {name : String} :
    WellWritten name ↔ ∀ segment ∈ segments (afterDots name), segment ≠ "" := by
  constructor
  · rintro ⟨names, nonempty, proper, written⟩
    have rest : afterDots name = joinSegments names :=
      String.append_right_inj (dots (leadingDots name)) |>.mp
        ((dots_append_afterDots name).trans written)
    rw [rest, segments_joinSegments nonempty fun segment member => (proper segment member).2]
    exact fun segment member => (proper segment member).1
  · intro proper
    refine ⟨segments (afterDots name), segments_ne_nil _, fun segment member =>
      ⟨proper segment member, dot_notMem_of_mem_segments member⟩, ?_⟩
    rw [joinSegments_segments, dots_append_afterDots]

/-- The last segment of a name and those between it and the leading dots. -/
theorem exists_last_segment (name : String) :
    ∃ inner leaf, segments (afterDots name) = inner ++ [leaf] ∧
      segments name = (List.replicate (leadingDots name) "" ++ inner) ++ [leaf] ∧
      (LacksLeaf name ↔ leaf = "") := by
  obtain ⟨inner, leaf, cut⟩ :=
    (List.eq_nil_or_concat _).resolve_left (segments_ne_nil (afterDots name))
  rw [List.concat_eq_append] at cut
  have whole : segments name = (List.replicate (leadingDots name) "" ++ inner) ++ [leaf] := by
    rw [segments_eq_replicate_append, cut, List.append_assoc]
  exact ⟨inner, leaf, cut, whole, lacksLeaf_iff whole⟩

theorem not_lacksLeaf_of_wellWritten {name : String} (written : WellWritten name) :
    ¬ LacksLeaf name := by
  obtain ⟨inner, leaf, cut, -, lacks⟩ := exists_last_segment name
  rw [lacks]
  exact wellWritten_iff.mp written leaf (cut ▸ List.mem_append_right _ List.mem_cons_self)

/-- The empty segments at the front are those of the leading dots, and no more. -/
theorem takeWhile_and_dropWhile_isEmpty {name leaf : String} {inner : List String}
    (cut : segments (afterDots name) = inner ++ [leaf]) (count : Nat) :
    (List.replicate count "" ++ inner).takeWhile String.isEmpty = List.replicate count "" ∧
      (List.replicate count "" ++ inner).dropWhile String.isEmpty = inner := by
  have empties : ∀ segment ∈ List.replicate count "", segment.isEmpty = true := by
    intro segment member
    rw [List.eq_of_mem_replicate member]
    rfl
  rw [List.takeWhile_append_of_pos empties, List.dropWhile_append_of_pos empties]
  cases inner with
  | nil => exact ⟨List.append_nil _, rfl⟩
  | cons first others =>
    have proper : ¬ first.isEmpty = true := fun empty =>
      head_ne_empty_of_segments_afterDots cut (by simp) (String.isEmpty_iff.mp empty)
    rw [List.takeWhile_cons, List.dropWhile_cons, if_neg proper, if_neg proper]
    exact ⟨List.append_nil _, rfl⟩

end Text

namespace History

open Text

/-! ### One name -/

/-- The history after a name, whether the name has a path or not. -/
def after (history : History) (name : String) : History :=
  (history.declare name).2

/-- The history after names that are declared one after the other, from the start of a file. -/
def afterNames (names : List String) : History :=
  names.foldl after .empty

/-- The path that a name stands for in a history: without leading dots it is the name itself,
and otherwise the rest of the name stands below the entry that the dots pick, counted from
one. -/
structure StandsFor (history : History) (name path : String) : Prop where
  absolute : leadingDots name = 0 → path = name
  relative : ∀ entry, leadingDots name = entry + 1 →
    ∃ parent, history.paths[entry]? = some parent ∧ path = parent ++ "." ++ afterDots name

/-- How many entries of the history stay when a name is declared. -/
def kept (name : String) : Nat :=
  if leadingDots name = 0 ∨ '.' ∉ (afterDots name).toList then leadingDots name
  else leadingDots name + 1

theorem declare_of_lacksLeaf (history : History) {name : String} (lacks : LacksLeaf name) :
    history.declare name = (.error (.invalid name), history) := by
  obtain ⟨inner, leaf, -, whole, lacksIff⟩ := exists_last_segment name
  simp only [declare]
  rw [whole, List.getLast?_concat, Option.getD_some, lacksIff.mp lacks]
  rfl

/-- A name with a last segment, as it is taken apart. -/
theorem declare_of_not_lacksLeaf (history : History) {name : String} (named : ¬ LacksLeaf name) :
    ∃ inner leaf, segments (afterDots name) = inner ++ [leaf] ∧ leaf ≠ "" ∧
      history.declare name = history.declareSegments name (leadingDots name) inner leaf := by
  obtain ⟨inner, leaf, cut, whole, lacksIff⟩ := exists_last_segment name
  have proper : leaf ≠ "" := fun empty => named (lacksIff.mpr empty)
  have present : ¬ leaf.isEmpty = true := fun empty => proper (String.isEmpty_iff.mp empty)
  obtain ⟨front, middle⟩ := takeWhile_and_dropWhile_isEmpty cut (leadingDots name)
  refine ⟨inner, leaf, cut, proper, ?_⟩
  simp only [declare]
  rw [whole, List.getLast?_concat, Option.getD_some, if_neg present, List.dropLast_concat, front,
    middle, List.length_replicate]

theorem declare_of_tooManyDots {history : History} {name : String} (named : ¬ LacksLeaf name)
    (tooMany : history.paths.length < leadingDots name) :
    history.declare name =
      (.error (.noParent name (history.paths.length + 1) history.paths.length), history) := by
  obtain ⟨inner, leaf, -, -, declared⟩ := history.declare_of_not_lacksLeaf named
  obtain ⟨entry, dots⟩ := Nat.exists_eq_add_one_of_ne_zero (Nat.ne_zero_of_lt tooMany)
  have missing : history.paths[entry]? = none := List.getElem?_eq_none (by omega)
  rw [declared, dots, declareSegments, missing]

theorem any_isEmpty_iff {name leaf : String} {inner : List String} (proper : leaf ≠ "")
    (cut : segments (afterDots name) = inner ++ [leaf]) :
    inner.any String.isEmpty = true ↔ ¬ WellWritten name := by
  rw [wellWritten_iff, cut]
  simp [proper]

theorem declare_of_not_wellWritten {history : History} {name : String}
    (named : ¬ LacksLeaf name) (reached : leadingDots name ≤ history.paths.length)
    (faulty : ¬ WellWritten name) : history.declare name = (.error (.invalid name), history) := by
  obtain ⟨inner, leaf, cut, proper, declared⟩ := history.declare_of_not_lacksLeaf named
  have empty := (any_isEmpty_iff proper cut).mpr faulty
  rw [declared]
  cases dots : leadingDots name with
  | zero => rw [declareSegments, if_pos empty]
  | succ entry =>
    have found : history.paths[entry]? = some _ := List.getElem?_eq_getElem (by omega)
    simp only [declareSegments]
    rw [found]
    exact if_pos empty

/-- A relative name keeps one entry more exactly if it has inner segments. -/
theorem kept_of_relative {name leaf : String} {inner : List String} {entry : Nat}
    (cut : segments (afterDots name) = inner ++ [leaf]) (relative : leadingDots name = entry + 1) :
    kept name = if inner.isEmpty then entry + 1 else entry + 2 := by
  rw [kept, relative]
  cases inner with
  | nil =>
    have dotless := (segments_eq_singleton_iff.mp cut).2
    rw [if_pos (.inr dotless)]
    rfl
  | cons first others =>
    have dotted : ¬ (entry + 1 = 0 ∨ '.' ∉ (afterDots name).toList) := by
      rintro (absolute | dotless)
      · cases absolute
      · rw [segments_of_dotless dotless] at cut
        simp at cut
    rw [if_neg dotted]
    rfl

theorem declare_of_wellWritten {history : History} {name : String} (written : WellWritten name)
    (reached : leadingDots name ≤ history.paths.length) :
    ∃ path, history.StandsFor name path ∧
      history.declare name = (.ok path, history.push (kept name) path) := by
  obtain ⟨inner, leaf, cut, proper, declared⟩ :=
    history.declare_of_not_lacksLeaf (not_lacksLeaf_of_wellWritten written)
  have noEmpty : ¬ inner.any String.isEmpty = true := fun empty =>
    (any_isEmpty_iff proper cut).mp empty written
  have rest : joinSegments (inner ++ [leaf]) = afterDots name := by
    rw [← cut, joinSegments_segments]
  rw [declared]
  cases dots : leadingDots name with
  | zero =>
    have whole := rest.trans (afterDots_of_absolute dots)
    refine ⟨name, ⟨fun _ => rfl, fun entry relative => ?_⟩, ?_⟩
    · cases dots.symm.trans relative
    · rw [declareSegments, if_neg noEmpty, whole, kept, dots, if_pos (.inl rfl)]
  | succ entry =>
    obtain ⟨parent, found⟩ : ∃ parent, history.paths[entry]? = some parent :=
      ⟨_, List.getElem?_eq_getElem (by omega)⟩
    have below : joinSegments (parent :: inner ++ [leaf]) = parent ++ "." ++ afterDots name := by
      rw [List.cons_append, joinSegments_cons parent (by simp), rest]
    refine ⟨parent ++ "." ++ afterDots name, ⟨fun absolute => ?_, fun own relative => ?_⟩, ?_⟩
    · cases dots.symm.trans absolute
    · cases dots.symm.trans relative
      exact ⟨parent, found, rfl⟩
    · simp only [declareSegments]
      rw [found]
      simp only
      rw [if_neg noEmpty, below, kept_of_relative cut dots]

/-- What declaring a name does: the name gets the path it stands for, which displaces the end of the
history, or it has no path and the history stays as it was. -/
theorem declare_cases (history : History) (name : String) :
    (WellWritten name ∧ leadingDots name ≤ history.paths.length ∧
      ∃ path, history.StandsFor name path ∧
        history.declare name = (.ok path, history.push (kept name) path)) ∨
    ∃ error, history.declare name = (.error error, history) := by
  by_cases lacks : LacksLeaf name
  · exact .inr ⟨_, history.declare_of_lacksLeaf lacks⟩
  by_cases reached : leadingDots name ≤ history.paths.length
  · by_cases written : WellWritten name
    · exact .inl ⟨written, reached, declare_of_wellWritten written reached⟩
    · exact .inr ⟨_, declare_of_not_wellWritten lacks reached written⟩
  · exact .inr ⟨_, declare_of_tooManyDots lacks (Nat.lt_of_not_le reached)⟩

theorem resolve_eq_ok_iff {history later : History} {name path : String} :
    history.resolve name = .ok (path, later) ↔ history.declare name = (.ok path, later) := by
  rw [resolve]
  rcases history.declare name with ⟨outcome, own⟩
  cases outcome with
  | ok => simp
  | error => simp

theorem resolve_of_declare_error {history later : History} {name : String} {error : PathError}
    (failed : history.declare name = (.error error, later)) :
    history.resolve name = .error error := by
  rw [resolve, failed]

/-- What can be said of a name that has a path, and of the history after it. -/
theorem of_resolve_eq_ok {history later : History} {name path : String}
    (resolved : history.resolve name = .ok (path, later)) :
    WellWritten name ∧ leadingDots name ≤ history.paths.length ∧
      history.StandsFor name path ∧ later = history.push (kept name) path := by
  have declared := resolve_eq_ok_iff.mp resolved
  rcases history.declare_cases name with
    ⟨written, reached, own, stands, ownDeclared⟩ | ⟨error, failed⟩
  · cases declared.symm.trans ownDeclared
    exact ⟨written, reached, stands, rfl⟩
  · cases declared.symm.trans failed

/-- A name without a path leaves the history as it was, whatever is wrong with it. -/
theorem declare_of_resolve_error {history : History} {name : String} {error : PathError}
    (failed : history.resolve name = .error error) :
    history.declare name = (.error error, history) := by
  rcases history.declare_cases name with ⟨-, -, path, -, declared⟩ | ⟨own, ownFailed⟩
  · cases failed.symm.trans (resolve_eq_ok_iff.mpr declared)
  · cases failed.symm.trans (resolve_of_declare_error ownFailed)
    exact ownFailed

/-- A name that has a path at the start of a file is absolute, so it has the same path anywhere,
and nothing stays of what was declared before. -/
theorem resolve_of_empty {name path : String} {later : History}
    (resolved : History.empty.resolve name = .ok (path, later)) (history : History) :
    history.resolve name = .ok (path, later) := by
  obtain ⟨written, reached, stands, rfl⟩ := of_resolve_eq_ok resolved
  have absolute : leadingDots name = 0 := Nat.le_zero.mp reached
  have keepsNothing : kept name = 0 := by rw [kept, if_pos (.inl absolute), absolute]
  obtain ⟨own, ownStands, declared⟩ :=
    declare_of_wellWritten written (absolute ▸ Nat.zero_le history.paths.length)
  rw [resolve_eq_ok_iff, declared, ownStands.absolute absolute, stands.absolute absolute,
    keepsNothing]
  rfl

/-! ### Any history of a file -/

theorem afterNames_concat (names : List String) (name : String) :
    afterNames (names ++ [name]) = (afterNames names).after name := by
  rw [afterNames, List.foldl_append]
  rfl

/-- Whatever was declared before, a name has a path exactly if it is well written and has no
more leading dots than there are entries; the path is then the one it stands for. A name that
lacks its last segment is invalid. Otherwise too many dots are reported first, with the number of
entries and the first missing one, and an empty segment after them is reported last. A name
without a path leaves the history as it was. -/
theorem resolve_settles_names (names : List String) (name : String) :
    ((∃ path later, (afterNames names).resolve name = .ok (path, later)) ↔
      WellWritten name ∧ leadingDots name ≤ (afterNames names).paths.length) ∧
    (∀ path later, (afterNames names).resolve name = .ok (path, later) →
      (afterNames names).StandsFor name path) ∧
    (LacksLeaf name → (afterNames names).resolve name = .error (.invalid name)) ∧
    (¬ LacksLeaf name → (afterNames names).paths.length < leadingDots name →
      (afterNames names).resolve name =
        .error (.noParent name ((afterNames names).paths.length + 1)
          (afterNames names).paths.length)) ∧
    (¬ LacksLeaf name → leadingDots name ≤ (afterNames names).paths.length →
      ¬ WellWritten name → (afterNames names).resolve name = .error (.invalid name)) ∧
    (∀ error, (afterNames names).resolve name = .error error →
      afterNames (names ++ [name]) = afterNames names) := by
  refine ⟨⟨?_, ?_⟩, ?_, fun lacks => resolve_of_declare_error (declare_of_lacksLeaf _ lacks),
    fun named tooMany => resolve_of_declare_error (declare_of_tooManyDots named tooMany),
    fun named reached faulty =>
      resolve_of_declare_error (declare_of_not_wellWritten named reached faulty), ?_⟩
  · rintro ⟨path, later, resolved⟩
    obtain ⟨written, reached, -, -⟩ := of_resolve_eq_ok resolved
    exact ⟨written, reached⟩
  · rintro ⟨written, reached⟩
    obtain ⟨path, -, declared⟩ := declare_of_wellWritten written reached
    exact ⟨path, _, resolve_eq_ok_iff.mpr declared⟩
  · intro path later resolved
    exact (of_resolve_eq_ok resolved).2.2.1
  · intro error failed
    rw [afterNames_concat, after, declare_of_resolve_error failed]

/-! ### What stays of the history -/

/-- The next deeper name stands below the entry at the place of the leading dots. -/
theorem resolve_below {history : History} {next parent : String} {entry : Nat}
    (found : history.paths[entry]? = some parent) (written : WellWritten next)
    (deeper : leadingDots next = entry + 1) :
    ∃ later, history.resolve next = .ok (parent ++ "." ++ afterDots next, later) := by
  have reached : leadingDots next ≤ history.paths.length := by
    have inside := (List.getElem?_eq_some_iff.mp found).1
    omega
  obtain ⟨path, stands, declared⟩ := declare_of_wellWritten written reached
  obtain ⟨own, ownFound, rfl⟩ := stands.relative entry deeper
  cases found.symm.trans ownFound
  exact ⟨_, resolve_eq_ok_iff.mpr declared⟩

/-- A name that leaves nothing of the history after the entries its leading dots count: it is
absolute, or has one segment after its dots, or there was nothing more. -/
def CutsAtDots (history : History) (name : String) : Prop :=
  leadingDots name = 0 ∨ '.' ∉ (afterDots name).toList ∨
    history.paths.length = leadingDots name

theorem paths_push_of_cutsAtDots {history : History} {name : String}
    (cuts : history.CutsAtDots name) (path : String) :
    (history.push (kept name) path).paths = history.paths.take (leadingDots name) ++ [path] := by
  rw [push, kept]
  split
  · rfl
  · rename_i several
    -- Only a short history is left, and of a short history nothing is cut off.
    have short : history.paths.length = leadingDots name := by
      rcases cuts with absolute | dotless | short
      · exact absurd (.inl absolute) several
      · exact absurd (.inr dotless) several
      · exact short
    rw [List.take_of_length_le (by omega), List.take_of_length_le (by omega)]

theorem paths_push_of_not_cutsAtDots {history : History} {name : String}
    (stale : ¬ history.CutsAtDots name) (reached : leadingDots name ≤ history.paths.length)
    (path : String) :
    ∃ entry, history.paths[leadingDots name]? = some entry ∧
      (history.push (kept name) path).paths =
        history.paths.take (leadingDots name) ++ [entry, path] := by
  obtain ⟨relative, dotted, longer⟩ := not_or.mp stale |>.imp id not_or.mp
  have inside : leadingDots name < history.paths.length := by omega
  refine ⟨_, List.getElem?_eq_getElem inside, ?_⟩
  rw [push, kept, if_neg (not_or.mpr ⟨relative, dotted⟩), ← List.take_append_getElem inside,
    List.append_assoc]
  rfl

/-- After a name that has a path the history is what the name keeps of it and then the path. It
is cut at the leading dots, so that the path is the parent of the next deeper name, if the name
is absolute, or has one segment after its dots, or met no further entry; and in no other case:
then the entry at the place of the leading dots stays, and the next deeper name stands below
that. -/
theorem resolve_cuts_history {names : List String} {name path : String} {later : History}
    (resolved : (afterNames names).resolve name = .ok (path, later)) :
    later.paths = (afterNames names).paths.take (kept name) ++ [path] ∧
    (later.paths = (afterNames names).paths.take (leadingDots name) ++ [path] ↔
      (afterNames names).CutsAtDots name) ∧
    ((afterNames names).CutsAtDots name →
      later.paths[leadingDots name]? = some path ∧
      ∀ next, WellWritten next → leadingDots next = leadingDots name + 1 →
        ∃ last, later.resolve next = .ok (path ++ "." ++ afterDots next, last)) ∧
    (¬ (afterNames names).CutsAtDots name →
      ∃ stale, (afterNames names).paths[leadingDots name]? = some stale ∧
        later.paths[leadingDots name]? = some stale ∧
        ∀ next, WellWritten next → leadingDots next = leadingDots name + 1 →
          ∃ last, later.resolve next = .ok (stale ++ "." ++ afterDots next, last)) := by
  obtain ⟨-, reached, -, rfl⟩ := of_resolve_eq_ok resolved
  have place (entries : List String) :
      ((afterNames names).paths.take (leadingDots name) ++ entries)[leadingDots name]? =
        entries.head? := by
    have length : ((afterNames names).paths.take (leadingDots name)).length = leadingDots name :=
      List.length_take_of_le reached
    rw [List.getElem?_append_right length.le, length, Nat.sub_self, List.head?_eq_getElem?]
  refine ⟨rfl, ⟨fun exact => ?_, fun cuts => paths_push_of_cutsAtDots cuts path⟩, ?_, ?_⟩
  · by_contra stale
    obtain ⟨entry, -, paths⟩ := paths_push_of_not_cutsAtDots stale reached path
    have lengths := congrArg List.length (paths.symm.trans exact)
    simp at lengths
  · intro cuts
    have found : ((afterNames names).push (kept name) path).paths[leadingDots name]? =
        some path := by
      rw [paths_push_of_cutsAtDots cuts, place]
      rfl
    exact ⟨found, fun next written deeper => resolve_below found written deeper⟩
  · intro stale
    obtain ⟨entry, old, paths⟩ := paths_push_of_not_cutsAtDots stale reached path
    have found : ((afterNames names).push (kept name) path).paths[leadingDots name]? =
        some entry := by
      rw [paths, place]
      rfl
    exact ⟨entry, old, found, fun next written deeper => resolve_below found written deeper⟩

/-- A sibling with several segments, met after an older sibling, leaves that one in its place. -/
theorem resolve_cuts_history_sibling :
    (afterNames ["pkg", ".old"]).resolve ".sub.inner.Leaf" =
        .ok ("pkg.sub.inner.Leaf", ⟨["pkg", "pkg.old", "pkg.sub.inner.Leaf"]⟩) ∧
      ¬ (["pkg", "pkg.old", "pkg.sub.inner.Leaf"] =
          (afterNames ["pkg", ".old"]).paths.take 1 ++ ["pkg.sub.inner.Leaf"]) ∧
      ¬ (afterNames ["pkg", ".old"]).CutsAtDots ".sub.inner.Leaf" := by
  have resolved : (afterNames ["pkg", ".old"]).resolve ".sub.inner.Leaf" =
      .ok ("pkg.sub.inner.Leaf", ⟨["pkg", "pkg.old", "pkg.sub.inner.Leaf"]⟩) := by rfl
  have stale : ¬ (["pkg", "pkg.old", "pkg.sub.inner.Leaf"] =
      (afterNames ["pkg", ".old"]).paths.take 1 ++ ["pkg.sub.inner.Leaf"]) := by decide
  exact ⟨resolved, stale, fun cuts => stale ((resolve_cuts_history resolved).2.1.mpr cuts)⟩

/-- The history is not always cut at the leading dots. -/
theorem resolve_keeps_stale_entry :
    ¬ ∀ (names : List String) (name path : String) (later : History),
      (afterNames names).resolve name = .ok (path, later) →
        later.paths = (afterNames names).paths.take (leadingDots name) ++ [path] := by
  intro always
  have wrong := always ["pkg", ".old"] ".sub.inner.Leaf" "pkg.sub.inner.Leaf"
    ⟨["pkg", "pkg.old", "pkg.sub.inner.Leaf"]⟩ rfl
  revert wrong
  decide

end History

end DocComments
