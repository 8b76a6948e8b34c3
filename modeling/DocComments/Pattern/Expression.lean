/-
This file gives the shape of a pattern as it is written: characters, conditions on a place,
sequences, alternatives, numbered groups and repetitions.
-/

import DocComments.Pattern.CharSet

namespace DocComments

/-- A condition on a place between two characters. -/
inductive Look where
  | textStart
  | textEnd
  | lineStart
  | lineEnd
  | wordBoundary
  | notWordBoundary
  | wordStart
  | wordEnd
  | wordStartHalf
  | wordEndHalf
  | returnLineStart
  | returnLineEnd
deriving DecidableEq, Repr

namespace Look

/-- Whether there is a character and it belongs to a word. -/
def isWord (c : Option Char) : Bool :=
  c.any Text.isWordCharacter

/-- Whether the condition holds between the character before a place and the one after it. A half
of a word boundary looks to one side only. Where carriage returns end lines too, there is no line
between a carriage return and its line feed. -/
def holds (condition : Look) (before after : Option Char) : Bool :=
  match condition with
  | .textStart => before.isNone
  | .textEnd => after.isNone
  | .lineStart => before.isNone || before == some '\n'
  | .lineEnd => after.isNone || after == some '\n'
  | .wordBoundary => isWord before != isWord after
  | .notWordBoundary => isWord before == isWord after
  | .wordStart => !isWord before && isWord after
  | .wordEnd => isWord before && !isWord after
  | .wordStartHalf => !isWord before
  | .wordEndHalf => !isWord after
  | .returnLineStart =>
    before.isNone || before == some '\n' || (before == some '\r' && after != some '\n')
  | .returnLineEnd =>
    after.isNone || after == some '\r' || (after == some '\n' && before != some '\r')

end Look

/-- A pattern as written. A repetition runs its body at least `least` times and at most `most`
times, and prefers more rounds over fewer exactly when it is greedy. -/
inductive Expression where
  | empty
  | set (chars : CharSet)
  | look (condition : Look)
  | sequence (first second : Expression)
  | alternative (first second : Expression)
  | group (index : Nat) (body : Expression)
  | repetition (body : Expression) (least : Nat) (most : Option Nat) (greedy : Bool)
deriving Repr

namespace Expression

/-- Whether the shape of the expression lets it match without consuming a character. -/
def nullable : Expression → Bool
  | .empty => true
  | .set _ => false
  | .look _ => true
  | .sequence first second => first.nullable && second.nullable
  | .alternative first second => first.nullable || second.nullable
  | .group _ body => body.nullable
  | .repetition body least _ _ => least == 0 || body.nullable

/-- How many nodes the expression has once its repetitions are written out. -/
def expandedSize : Expression → Nat
  | .empty => 1
  | .set _ => 1
  | .look _ => 1
  | .sequence first second => first.expandedSize + second.expandedSize + 1
  | .alternative first second => first.expandedSize + second.expandedSize + 1
  | .group _ body => body.expandedSize + 1
  | .repetition body least most _ => body.expandedSize * max (least + 1) (most.getD 0) + 1

/-- The expressions in order, one after the other. -/
def sequenceOf : List Expression → Expression
  | [] => .empty
  | [item] => item
  | item :: next :: items => .sequence item (sequenceOf (next :: items))

/-- The expressions as alternatives, the first preferred. -/
def alternativesOf : List Expression → Expression
  | [] => .empty
  | [item] => item
  | item :: next :: items => .alternative item (alternativesOf (next :: items))

end Expression

end DocComments
