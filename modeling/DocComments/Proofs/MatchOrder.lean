/-
This file proves where the matches of a pattern lie in a text.

Following a plan never goes back behind the place where it started, and a group that is closed on
the way lies between that place and the one that is reached. So the groups of a match lie inside of
it. The next match is searched from the end of the one before, and if an empty match is found
again there, from one character further. So successive matches do not overlap, and since the match
at a place is always the same one, each of them starts after the one before.
-/

import DocComments.Source.Config
import Mathlib.Data.List.Basic

namespace DocComments

/-! ### Places on the way -/

namespace Cursor

/-- A place that is reached from another one: what is passed and what is left make the same text,
and every group closed on the way lies between the two. -/
structure Reaches (cursor reached : Cursor) : Prop where
  forward : cursor.position ≤ reached.position
  length : reached.position + reached.rest.length = cursor.position + cursor.rest.length
  groups : ∀ group ∈ reached.groups, group ∈ cursor.groups ∨
    cursor.position ≤ group.2.start ∧ group.2.start ≤ group.2.stop ∧
      group.2.stop ≤ reached.position

theorem Reaches.refl (cursor : Cursor) : cursor.Reaches cursor :=
  ⟨Nat.le_refl _, rfl, fun _ => .inl⟩

theorem Reaches.trans {cursor middle reached : Cursor} (first : cursor.Reaches middle)
    (second : middle.Reaches reached) : cursor.Reaches reached := by
  refine ⟨Nat.le_trans first.forward second.forward, second.length.trans first.length,
    fun group member => ?_⟩
  have forward := first.forward
  have forward' := second.forward
  rcases second.groups group member with earlier | ⟨after, ordered, before⟩
  · rcases first.groups group earlier with old | ⟨after, ordered, before⟩
    · exact .inl old
    · exact .inr ⟨after, ordered, by omega⟩
  · exact .inr ⟨by omega, ordered, before⟩

theorem reaches_of_consume? {cursor reached : Cursor} {chars : CharSet}
    (consumed : cursor.consume? chars = some reached) : cursor.Reaches reached := by
  unfold consume? at consumed
  split at consumed
  · cases consumed
  · rename_i c rest left
    split at consumed
    · cases consumed
      refine ⟨Nat.le_succ _, ?_, fun _ => .inl⟩
      rw [left, List.length_cons]
      exact Nat.add_right_comm _ _ _
    · cases consumed

theorem reaches_of_meet? {cursor reached : Cursor} {label : Nat}
    (met : cursor.meet? label = some reached) : cursor.Reaches reached := by
  unfold meet? at met
  split at met
  · cases met
  · cases met
    exact ⟨Nat.le_refl _, rfl, fun _ => .inl⟩

/-- A group that is opened at a place may be closed at any place reached from there. -/
theorem Reaches.close {cursor reached : Cursor} (reaches : cursor.Reaches reached) (index : Nat) :
    cursor.Reaches (reached.close index cursor.position) := by
  refine ⟨reaches.forward, reaches.length, fun group member => ?_⟩
  rcases List.mem_cons.mp member with rfl | earlier
  · exact .inr ⟨Nat.le_refl _, reaches.forward, Nat.le_refl _⟩
  · exact reaches.groups group earlier

end Cursor

namespace Plan

/-- A step hands on only places that it reaches. -/
def Advances (step : Continuation → Continuation) : Prop :=
  ∀ continuation cursor last, step continuation cursor = some last →
    ∃ reached, Cursor.Reaches cursor reached ∧ continuation reached = some last

theorem advances_iterate {round : Continuation → Continuation} (advances : Advances round)
    (label : Nat) (greedy : Bool) (bound : Nat) :
    Advances fun continuation => iterate round label greedy continuation bound := by
  intro continuation cursor last followed
  induction bound generalizing cursor with
  | zero => cases followed
  | succ bound inductionHypothesis =>
    simp only [iterate] at followed
    split at followed
    · cases followed
    · rename_i met meets
      have reachesMet := Cursor.reaches_of_meet? meets
      -- Another round goes on with the loop, and otherwise the continuation is next.
      have again : round (iterate round label greedy continuation bound) met = some last →
          ∃ reached, cursor.Reaches reached ∧ continuation reached = some last := by
        intro rounds
        obtain ⟨middle, reachesMiddle, goesOn⟩ := advances _ _ _ rounds
        obtain ⟨reached, reaches, continued⟩ := inductionHypothesis middle goesOn
        exact ⟨reached, (reachesMet.trans reachesMiddle).trans reaches, continued⟩
      have leave : continuation met = some last →
          ∃ reached, cursor.Reaches reached ∧ continuation reached = some last :=
        fun continued => ⟨met, reachesMet, continued⟩
      split at followed
      · rcases Option.or_eq_some_iff.mp (Option.orElse_eq_or ▸ followed) with rounds | ⟨-, out⟩
        · exact again rounds
        · exact leave out
      · rcases Option.or_eq_some_iff.mp (Option.orElse_eq_or ▸ followed) with out | ⟨-, rounds⟩
        · exact leave out
        · exact again rounds

/-- Following a plan leads only to places that are reached from the first. -/
theorem advances_follow (plan : Plan) : Advances plan.follow := by
  induction plan with
  | empty => exact fun continuation cursor last followed => ⟨cursor, .refl cursor, followed⟩
  | set chars =>
    intro continuation cursor last followed
    obtain ⟨reached, consumed, continued⟩ := Option.bind_eq_some_iff.mp followed
    exact ⟨reached, Cursor.reaches_of_consume? consumed, continued⟩
  | look condition =>
    intro continuation cursor last followed
    simp only [follow] at followed
    split at followed
    · exact ⟨cursor, .refl cursor, followed⟩
    · cases followed
  | sequence first second firstAdvances secondAdvances =>
    intro continuation cursor last followed
    obtain ⟨middle, reachesMiddle, goesOn⟩ := firstAdvances _ _ _ followed
    obtain ⟨reached, reaches, continued⟩ := secondAdvances _ _ _ goesOn
    exact ⟨reached, reachesMiddle.trans reaches, continued⟩
  | choice label first second firstAdvances secondAdvances =>
    intro continuation cursor last followed
    simp only [follow] at followed
    split at followed
    · cases followed
    · rename_i met meets
      have reachesMet := Cursor.reaches_of_meet? meets
      rcases Option.or_eq_some_iff.mp (Option.orElse_eq_or ▸ followed) with taken | ⟨-, taken⟩
      · obtain ⟨reached, reaches, continued⟩ := firstAdvances _ _ _ taken
        exact ⟨reached, reachesMet.trans reaches, continued⟩
      · obtain ⟨reached, reaches, continued⟩ := secondAdvances _ _ _ taken
        exact ⟨reached, reachesMet.trans reaches, continued⟩
  | loop label greedy body bodyAdvances =>
    intro continuation cursor last followed
    exact advances_iterate bodyAdvances label greedy _ continuation cursor last followed
  | group index body bodyAdvances =>
    intro continuation cursor last followed
    obtain ⟨reached, reaches, continued⟩ := bodyAdvances _ _ _ followed
    exact ⟨_, reaches.close index, continued⟩

end Plan

/-! ### Matches -/

/-- A match lies between two places of a text, and its groups inside of it. -/
structure Match.Within (found : Match) (first last : Nat) : Prop where
  after : first ≤ found.whole.start
  ordered : found.whole.start ≤ found.whole.stop
  before : found.whole.stop ≤ last
  groups : ∀ group ∈ found.groups, found.whole.start ≤ group.2.start ∧
    group.2.start ≤ group.2.stop ∧ group.2.stop ≤ found.whole.stop

theorem Match.Within.from_earlier {found : Match} {first last earlier : Nat}
    (within : found.Within first last) (le : earlier ≤ first) : found.Within earlier last :=
  ⟨Nat.le_trans le within.after, within.ordered, within.before, within.groups⟩

namespace Pattern

variable {pattern : Pattern} {text rest : List Char} {before : Option Char} {position bound : Nat}
  {last : Option Nat} {found : Match}

theorem within_of_matchAt? (matched : pattern.matchAt? before position rest = some found) :
    found.whole.start = position ∧ found.Within position (position + rest.length) := by
  obtain ⟨final, followed, rfl⟩ := Option.map_eq_some_iff.mp matched
  obtain ⟨reached, reaches, same⟩ := Plan.advances_follow _ _ _ _ followed
  obtain rfl : reached = final := Option.some.inj same
  refine ⟨rfl, Nat.le_refl _, reaches.forward, ?_, fun group member => ?_⟩
  · rw [← reaches.length]
    exact Nat.le_add_right _ _
  · exact (reaches.groups group member).resolve_left List.not_mem_nil

theorem within_of_searchFrom (searched : pattern.searchFrom before position rest = some found) :
    found.Within position (position + rest.length) := by
  induction rest generalizing before position with
  | nil => exact (within_of_matchAt? searched).2
  | cons c rest inductionHypothesis =>
    rw [searchFrom] at searched
    split at searched
    · rename_i matched
      cases searched
      exact (within_of_matchAt? matched).2
    · have within := inductionHypothesis searched
      rw [List.length_cons, Nat.add_comm rest.length, ← Nat.add_assoc]
      exact within.from_earlier (Nat.le_succ _)

theorem within_of_search (inside : position ≤ text.length)
    (searched : pattern.search text position = some found) : found.Within position text.length := by
  have within := within_of_searchFrom searched
  rwa [List.length_drop, Nat.add_sub_cancel' inside] at within

/-- The preferred match at a place of a text. -/
def matchIn? (pattern : Pattern) (text : List Char) (position : Nat) : Option Match :=
  pattern.matchAt? (text.take position).getLast? position (text.drop position)

/-- Where a pattern matches at a place, a search from there finds this match. -/
theorem search_of_matchIn? (matched : pattern.matchIn? text position = some found) :
    pattern.search text position = some found := by
  rw [matchIn?] at matched
  rw [search]
  cases left : text.drop position with
  | nil => rwa [left] at matched
  | cons c rest =>
    rw [left] at matched
    rw [searchFrom, matched]

/-- What a search finds is the match at the place where it starts. -/
theorem matchIn?_of_search (inside : position ≤ text.length)
    (searched : pattern.search text position = some found) :
    pattern.matchIn? text found.whole.start = some found := by
  rw [search] at searched
  generalize left : text.drop position = rest at searched
  induction rest generalizing position with
  | nil =>
    have start := (within_of_matchAt? searched).1
    rw [matchIn?, start, left]
    exact searched
  | cons c rest inductionHypothesis =>
    rw [searchFrom] at searched
    split at searched
    · rename_i matched
      cases searched
      rw [matchIn?, (within_of_matchAt? matched).1, left, matched]
    · have longer : position < text.length := by
        have count := congrArg List.length left
        rw [List.length_drop, List.length_cons] at count
        omega
      obtain ⟨same, next⟩ := List.cons.inj ((List.drop_eq_getElem_cons longer).symm.trans left)
      refine inductionHypothesis longer next ?_
      rwa [Nat.succ_eq_add_one, List.take_succ_eq_append_getElem longer, List.getLast?_concat, same]

/-- The next match is the first one found, or one that starts further on. -/
theorem next?_cases (isNext : pattern.next? text position last = some found) :
    (pattern.search text position = some found ∧
      (found.whole.start = found.whole.stop → last ≠ some found.whole.stop)) ∨
    (position < text.length ∧ pattern.search text (position + 1) = some found) := by
  obtain ⟨first, searched, chosen⟩ := Option.bind_eq_some_iff.mp isNext
  split at chosen
  · split at chosen
    · rename_i more
      exact .inr ⟨Nat.blt_eq.mp more, chosen⟩
    · cases chosen
  · rename_i other
    cases chosen
    refine .inl ⟨searched, fun empty again => other ?_⟩
    rw [Bool.and_eq_true]
    exact ⟨beq_iff_eq.mpr empty, beq_iff_eq.mpr again⟩

theorem within_of_next? (inside : position ≤ text.length)
    (isNext : pattern.next? text position last = some found) :
    found.Within position text.length ∧ pattern.matchIn? text found.whole.start = some found := by
  rcases next?_cases isNext with ⟨searched, -⟩ | ⟨more, searched⟩
  · exact ⟨within_of_search inside searched, matchIn?_of_search inside searched⟩
  · exact ⟨(within_of_search more searched).from_earlier (Nat.le_succ _),
      matchIn?_of_search more searched⟩

theorem within_of_mem_matchesFrom (inside : position ≤ text.length)
    (member : found ∈ pattern.matchesFrom text bound position last) :
    found.Within position text.length := by
  induction bound generalizing position last with
  | zero => cases member
  | succ bound inductionHypothesis =>
    rw [matchesFrom] at member
    split at member
    · cases member
    · rename_i first isNext
      have within := (within_of_next? inside isNext).1
      rcases List.mem_cons.mp member with rfl | later
      · exact within
      · exact (inductionHypothesis within.before later).from_earlier
          (Nat.le_trans within.after within.ordered)

/-- After an empty match at a place, all matches start after this place: it is found once more
there, and the search goes on one character further. -/
theorem lt_start_of_mem_matchesFrom (inside : position ≤ text.length) {empty : Match}
    (matched : pattern.matchIn? text position = some empty)
    (ends : empty.whole.stop = position)
    (member : found ∈ pattern.matchesFrom text bound position (some position)) :
    position < found.whole.start := by
  cases bound with
  | zero => cases member
  | succ bound =>
    rw [matchesFrom] at member
    split at member
    · cases member
    · rename_i first isNext
      have later : position < first.whole.start := by
        rcases next?_cases isNext with ⟨searched, differs⟩ | ⟨more, searched⟩
        · obtain rfl : empty = first :=
            Option.some.inj ((search_of_matchIn? matched).symm.trans searched)
          have starts := (within_of_matchAt? matched).1
          exact absurd (congrArg some ends.symm) (differs (starts.trans ends.symm))
        · exact (within_of_search more searched).after
      obtain ⟨within, -⟩ := within_of_next? inside isNext
      rcases List.mem_cons.mp member with rfl | inRest
      · exact later
      · have after := (within_of_mem_matchesFrom within.before inRest).after
        have ordered := within.ordered
        omega

/-- Successive matches do not overlap, and each starts after the one before. -/
theorem pairwise_matchesFrom (inside : position ≤ text.length) :
    (pattern.matchesFrom text bound position last).Pairwise fun earlier later =>
      earlier.whole.stop ≤ later.whole.start ∧ earlier.whole.start < later.whole.start := by
  induction bound generalizing position last with
  | zero => exact .nil
  | succ bound inductionHypothesis =>
    rw [matchesFrom]
    split
    · exact .nil
    · rename_i first isNext
      obtain ⟨within, matched⟩ := within_of_next? inside isNext
      refine List.pairwise_cons.mpr ⟨fun later member => ?_, inductionHypothesis within.before⟩
      have after := (within_of_mem_matchesFrom within.before member).after
      refine ⟨after, ?_⟩
      rcases Nat.lt_or_eq_of_le within.ordered with nonempty | empty
      · omega
      · rw [← empty] at member
        exact lt_start_of_mem_matchesFrom (Nat.le_trans within.ordered within.before) matched
          empty.symm member

end Pattern

/-! ### Markers -/

/-- A marker lies inside a text, and its name inside of it. -/
structure Marker.Inside (marker : Marker) (text : List Char) : Prop where
  start_le : marker.whole.start ≤ marker.name.start
  ordered : marker.name.start ≤ marker.name.stop
  stop_le : marker.name.stop ≤ marker.whole.stop
  before : marker.whole.stop ≤ text.length

namespace Pattern

theorem mem_groups_of_named? {pattern : Pattern} {found : Match} {name : String} {range : Range}
    (named : pattern.named? found name = some range) : ∃ index, (index, range) ∈ found.groups := by
  obtain ⟨index, -, isGroup⟩ := Option.bind_eq_some_iff.mp named
  obtain ⟨before, after, groups, -⟩ := List.lookup_eq_some_iff.mp isGroup
  refine ⟨index, ?_⟩
  rw [groups]
  exact List.mem_append_right _ List.mem_cons_self

theorem inside_of_mem_markers {pattern : Pattern} {text : List Char} {marker : Marker}
    (member : marker ∈ pattern.markers.markers text) : marker.Inside text := by
  rw [MarkerSearch.markers, markers, List.filterMap_map] at member
  obtain ⟨found, inMatches, made⟩ := List.mem_filterMap.mp member
  obtain ⟨name, named, rfl⟩ := Option.map_eq_some_iff.mp made
  obtain ⟨-, -, before, groups⟩ := within_of_mem_matchesFrom (Nat.zero_le _) inMatches
  obtain ⟨index, isGroup⟩ := mem_groups_of_named? named
  obtain ⟨start, ordered, stop⟩ := groups _ isGroup
  exact ⟨start, ordered, stop, before⟩

/-- Markers do not overlap, and each starts after the one before. -/
theorem pairwise_markers (pattern : Pattern) (text : List Char) :
    (pattern.markers.markers text).Pairwise fun earlier later =>
      earlier.whole.stop ≤ later.whole.start ∧ earlier.whole.start < later.whole.start := by
  rw [MarkerSearch.markers, markers, List.filterMap_map, List.pairwise_filterMap]
  refine (pairwise_matchesFrom (Nat.zero_le _)).imp fun {earlier later} ordered => ?_
  rintro first isFirst second isSecond
  obtain ⟨name, -, rfl⟩ := Option.map_eq_some_iff.mp isFirst
  obtain ⟨name', -, rfl⟩ := Option.map_eq_some_iff.mp isSecond
  exact ordered

end Pattern

end DocComments
