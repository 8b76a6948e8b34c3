/-
This file turns an expression into a plan for matching.

In a plan the only places where matching can go two ways are its choices and its loops, and
each of them has its own number. The numbers are what makes repetition well behaved: a choice
point met again before any character was consumed has nothing new to offer, so the matcher may
refuse it, and a loop around an expression that can match nothing still ends.

A repetition is written out: a required round becomes a copy of the body, an optional round a
choice, and an unbounded rest a loop.
-/

import DocComments.Pattern.Expression

namespace DocComments

/-- A plan for matching. A choice prefers its first branch. A loop decides between one more
round of its body and going on; it prefers another round exactly when it is greedy. -/
inductive Plan where
  | empty
  | set (chars : CharSet)
  | look (condition : Look)
  | sequence (first second : Plan)
  | choice (label : Nat) (first second : Plan)
  | loop (label : Nat) (greedy : Bool) (body : Plan)
  | group (index : Nat) (body : Plan)
deriving Repr

namespace Plan

/-- A choice between taking a branch and passing it by, the branch preferred when greedy. -/
def optional (label : Nat) (greedy : Bool) (branch : Plan) : Plan :=
  if greedy then .choice label branch .empty else .choice label .empty branch

/-- So many copies of a body, each with numbers of its own. -/
def copies (body : Nat → Plan × Nat) : Nat → Nat → Plan × Nat
  | 0, next => (.empty, next)
  | count + 1, next =>
    let (first, next) := body next
    let (rest, next) := copies body count next
    (.sequence first rest, next)

/-- Up to so many rounds of a body: every further round is optional and lies inside the branch
of the one before. -/
def upTo (body : Nat → Plan × Nat) (greedy : Bool) : Nat → Nat → Plan × Nat
  | 0, next => (.empty, next)
  | count + 1, next =>
    let (first, next) := body next
    let (rest, next) := upTo body greedy count next
    (optional next greedy (.sequence first rest), next + 1)

/-- One round of a body or more. -/
def atLeastOnce (body : Nat → Plan × Nat) (greedy : Bool) (next : Nat) : Plan × Nat :=
  let (round, next) := body next
  (.sequence round (.loop next greedy round), next + 1)

/-- Any number of rounds of a body. A body that can match nothing is entered through a choice
of its own, because its loop would refuse a first round that consumes nothing. -/
def anyNumber (body : Nat → Plan × Nat) (nullable greedy : Bool) (next : Nat) : Plan × Nat :=
  if nullable then
    let (rounds, next) := atLeastOnce body greedy next
    (optional next greedy rounds, next + 1)
  else
    let (round, next) := body next
    (.loop next greedy round, next + 1)

/-- The rounds of a repetition. -/
def rounds (body : Nat → Plan × Nat) (nullable : Bool) (least : Nat) (most : Option Nat)
    (greedy : Bool) (next : Nat) : Plan × Nat :=
  match most with
  | some most =>
    let (required, next) := copies body least next
    let (further, next) := upTo body greedy (most - least) next
    (.sequence required further, next)
  | none =>
    match least with
    | 0 => anyNumber body nullable greedy next
    | before + 1 =>
      let (required, next) := copies body before next
      let (further, next) := atLeastOnce body greedy next
      (.sequence required further, next)

end Plan

/-- The plan of an expression, its choice points numbered from `next` on, and the first number
left over. -/
def Expression.plan : Expression → Nat → Plan × Nat
  | .empty, next => (.empty, next)
  | .set chars, next => (.set chars, next)
  | .look condition, next => (.look condition, next)
  | .sequence first second, next =>
    let (first, next) := first.plan next
    let (second, next) := second.plan next
    (.sequence first second, next)
  | .alternative first second, next =>
    let (first, next) := first.plan next
    let (second, next) := second.plan next
    (.choice next first second, next + 1)
  | .group index body, next =>
    let (body, next) := body.plan next
    (.group index body, next)
  | .repetition body least most greedy, next =>
    Plan.rounds body.plan body.nullable least most greedy next

end DocComments
