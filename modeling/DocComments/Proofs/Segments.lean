/-
This file proves that a dotted path and the list of its segments are the same thing.

Cutting a path at its dots gives at least one segment and no segment with a dot, and joining
the segments gives the path back; joining names without dots and cutting the result gives the
names back. So a path may be replaced by its segments, and a path below another one is the path
above with one more segment.
-/

import DocComments.Text.Pieces
import Mathlib.Data.List.Basic

namespace DocComments.Text

/-! ### Cutting and joining lists of characters -/

theorem splitOn_eq (separator : Char) (text : List Char) :
    splitOn separator text = text.splitOn separator := by
  induction text with
  | nil => rfl
  | cons c rest inductionHypothesis =>
    rw [splitOn, List.splitOn_cons_eq_if_modifyHead, inductionHypothesis]
    split
    · rfl
    · cases pieces : rest.splitOn separator with
      | nil => exact absurd pieces (List.splitOn_ne_nil separator rest)
      | cons piece others => rfl

theorem joinWith_eq (separator : List Char) (pieces : List (List Char)) :
    joinWith separator pieces = separator.intercalate pieces := by
  fun_induction joinWith separator pieces with
  | case1 => rfl
  | case2 piece => rw [List.intercalate_singleton]
  | case3 piece next pieces inductionHypothesis =>
    rw [inductionHypothesis, List.intercalate_cons_cons]

theorem separator_notMem_of_mem_splitOn {separator : Char} {text piece : List Char}
    (member : piece ∈ splitOn separator text) : separator ∉ piece := by
  induction text generalizing piece with
  | nil =>
    rw [splitOn, List.mem_singleton] at member
    rw [member]
    exact List.not_mem_nil
  | cons c rest inductionHypothesis =>
    rw [splitOn] at member
    split at member
    · rcases List.mem_cons.mp member with rfl | tail
      · exact List.not_mem_nil
      · exact inductionHypothesis tail
    · rename_i other
      split at member
      · rw [List.mem_singleton.mp member, List.mem_singleton]
        exact fun same => other (beq_iff_eq.mpr same.symm)
      · rename_i first others pieces
        rcases List.mem_cons.mp member with rfl | tail
        · intro inside
          rcases List.mem_cons.mp inside with same | inFirst
          · exact other (beq_iff_eq.mpr same.symm)
          · exact inductionHypothesis (pieces ▸ List.mem_cons_self) inFirst
        · exact inductionHypothesis (pieces ▸ List.mem_cons_of_mem _ tail)

/-! ### Paths and their segments -/

theorem segments_ne_nil (path : String) : segments path ≠ [] := by
  rw [segments, splitOn_eq]
  exact fun empty => List.splitOn_ne_nil _ _ (List.map_eq_nil_iff.mp empty)

theorem dot_notMem_of_mem_segments {path name : String} (member : name ∈ segments path) :
    '.' ∉ name.toList := by
  obtain ⟨piece, inside, rfl⟩ := List.mem_map.mp member
  rw [String.toList_ofList]
  exact separator_notMem_of_mem_splitOn inside

theorem joinSegments_segments (path : String) : joinSegments (segments path) = path := by
  have pieces : (segments path).map String.toList = path.toList.splitOn '.' := by
    rw [segments, splitOn_eq, List.map_map]
    refine (List.map_congr_left fun piece _ => ?_).trans (List.map_id _)
    exact String.toList_ofList
  rw [joinSegments, joinWith_eq, pieces, List.intercalate_splitOn, String.ofList_toList]

theorem segments_injective : Function.Injective segments := by
  intro first second same
  rw [← joinSegments_segments first, same, joinSegments_segments]

/-- A list of names is cut out of a path again when none of them has a dot. -/
theorem segments_joinSegments {names : List String} (nonempty : names ≠ [])
    (dotless : ∀ name ∈ names, '.' ∉ name.toList) : segments (joinSegments names) = names := by
  have dotlessPieces : ∀ piece ∈ names.map String.toList, '.' ∉ piece := by
    intro piece member
    obtain ⟨name, inside, rfl⟩ := List.mem_map.mp member
    exact dotless name inside
  rw [segments, joinSegments, String.toList_ofList, splitOn_eq, joinWith_eq,
    List.splitOn_intercalate '.' dotlessPieces (by simpa using nonempty), List.map_map]
  refine (List.map_congr_left fun name _ => ?_).trans (List.map_id _)
  exact String.ofList_toList

theorem segments_of_dotless {name : String} (dotless : '.' ∉ name.toList) :
    segments name = [name] := by
  rw [segments, splitOn_eq, List.splitOn_eq_singleton dotless, List.map_singleton,
    String.ofList_toList]

theorem segments_append_dot (path name : String) :
    segments (path ++ "." ++ name) = segments path ++ segments name := by
  have characters : (path ++ "." ++ name).toList = path.toList ++ '.' :: name.toList := by
    rw [String.toList_append, String.toList_append, List.append_assoc]
    rfl
  rw [segments, characters, splitOn_eq, List.splitOn_append_cons_self, List.map_append,
    segments, segments, splitOn_eq, splitOn_eq]

end DocComments.Text
