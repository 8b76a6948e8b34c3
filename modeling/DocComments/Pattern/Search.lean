/-
This file matches a plan against a text.

Matching is leftmost-first: of all places the leftmost at which the plan matches is taken, and
at that place the first way in the order of preference. The matcher follows the plan and hands
every place it reaches to a continuation; a continuation that fails sends it back to the last
choice. A choice point that is met twice with no character between the two fails the second
time. Nothing is lost by that, since everything it could lead to is already being tried, and it
bounds every loop by the length of the text.

Successive matches do not overlap, and an empty match directly at the end of the one before is
passed over.
-/

import DocComments.Pattern.Plan
import DocComments.Text.Bytes

namespace DocComments

/-- A place in a text under way: the character before it, the text after it, the number of
characters passed, the groups closed so far (the latest first), and the choice points met since
the last character. -/
structure Cursor where
  before : Option Char
  rest : List Char
  position : Nat
  groups : List (Nat × Range)
  trail : List Nat

namespace Cursor

/-- The place reached by consuming a character of the set. -/
def consume? (cursor : Cursor) (chars : CharSet) : Option Cursor :=
  match cursor.rest with
  | [] => none
  | c :: rest =>
    if chars.contains c then
      some ⟨some c, rest, cursor.position + 1, cursor.groups, []⟩
    else
      none

/-- Meets a choice point, which must not have been met since the last character. -/
def meet? (cursor : Cursor) (label : Nat) : Option Cursor :=
  if cursor.trail.contains label then
    none
  else
    some { cursor with trail := label :: cursor.trail }

/-- Closes a group that was opened at `start`. -/
def close (cursor : Cursor) (index start : Nat) : Cursor :=
  { cursor with groups := (index, ⟨start, cursor.position⟩) :: cursor.groups }

end Cursor

namespace Plan

/-- What happens at every place that a plan reaches. -/
abbrev Continuation := Cursor → Option Cursor

/-- The decision point of a loop, met up to `bound` times. -/
def iterate (round : Continuation → Continuation) (label : Nat) (greedy : Bool)
    (continuation : Continuation) : Nat → Continuation
  | 0, _ => none
  | bound + 1, cursor =>
    match cursor.meet? label with
    | none => none
    | some cursor =>
      if greedy then
        (round (iterate round label greedy continuation bound) cursor).orElse fun _ =>
          continuation cursor
      else
        (continuation cursor).orElse fun _ =>
          round (iterate round label greedy continuation bound) cursor

/-- Follows the plan from a place and continues at the places it reaches, in order of
preference, until a continuation succeeds. -/
def follow : Plan → Continuation → Continuation
  | .empty, continuation, cursor => continuation cursor
  | .set chars, continuation, cursor => (cursor.consume? chars).bind continuation
  | .look condition, continuation, cursor =>
    if condition.holds cursor.before cursor.rest.head? then continuation cursor else none
  | .sequence first second, continuation, cursor =>
    first.follow (second.follow continuation) cursor
  | .choice label first second, continuation, cursor =>
    match cursor.meet? label with
    | none => none
    | some cursor =>
      (first.follow continuation cursor).orElse fun _ => second.follow continuation cursor
  | .loop label greedy body, continuation, cursor =>
    iterate body.follow label greedy continuation (cursor.rest.length + 1) cursor
  | .group index body, continuation, cursor =>
    body.follow (fun reached => continuation (reached.close index cursor.position)) cursor

end Plan

/-- A pattern ready for matching: its plan and the numbers of its named groups. -/
structure Pattern where
  plan : Plan
  names : List (String × Nat)

/-- A match: the characters it covers and its groups, the latest closed first. -/
structure Match where
  whole : Range
  groups : List (Nat × Range)

namespace Pattern

/-- The pattern of an expression with these named groups. -/
def ofExpression (expression : Expression) (names : List (String × Nat)) : Pattern :=
  ⟨(expression.plan 0).1, names⟩

/-- Whether the pattern has a group of this name. -/
def hasGroup (pattern : Pattern) (name : String) : Bool :=
  pattern.names.any (·.1 == name)

/-- The preferred match that starts at a given place. -/
def matchAt? (pattern : Pattern) (before : Option Char) (position : Nat) (rest : List Char) :
    Option Match :=
  (pattern.plan.follow some ⟨before, rest, position, [], []⟩).map fun reached =>
    ⟨⟨position, reached.position⟩, reached.groups⟩

/-- The leftmost match that starts at a given place or after it. -/
def searchFrom (pattern : Pattern) : Option Char → Nat → List Char → Option Match
  | before, position, [] => pattern.matchAt? before position []
  | before, position, c :: rest =>
    match pattern.matchAt? before position (c :: rest) with
    | some found => some found
    | none => searchFrom pattern (some c) (position + 1) rest

/-- The leftmost match that starts at character `position` or after it. -/
def search (pattern : Pattern) (text : List Char) (position : Nat) : Option Match :=
  pattern.searchFrom (text.take position).getLast? position (text.drop position)

/-- The leftmost match in a text. -/
def find? (pattern : Pattern) (text : List Char) : Option Match :=
  pattern.search text 0

/-- Whether the pattern matches somewhere in the text. -/
def occursIn (pattern : Pattern) (text : List Char) : Bool :=
  (pattern.find? text).isSome

/-- The next match at or after `position`, when the match before ended at `last`. -/
def next? (pattern : Pattern) (text : List Char) (position : Nat) (last : Option Nat) :
    Option Match := do
  let found ← pattern.search text position
  if found.whole.start == found.whole.stop && last == some found.whole.stop then
    if Nat.blt position text.length then pattern.search text (position + 1) else none
  else
    return found

/-- Up to `bound` successive matches from `position` on. -/
def matchesFrom (pattern : Pattern) (text : List Char) : Nat → Nat → Option Nat → List Match
  | 0, _, _ => []
  | bound + 1, position, last =>
    match pattern.next? text position last with
    | none => []
    | some found => found :: matchesFrom pattern text bound found.whole.stop (some found.whole.stop)

/-- All successive matches in a text. Each ends after the one before, which bounds their
number. -/
def findAll (pattern : Pattern) (text : List Char) : List Match :=
  pattern.matchesFrom text (text.length + 1) 0 none

/-- The characters of a named group in a match, if the group took part in it. -/
def named? (pattern : Pattern) (found : Match) (name : String) : Option Range := do
  let index ← pattern.names.lookup name
  found.groups.lookup index

end Pattern

end DocComments
