/-
This file cuts texts at separators and replaces parts of them.

Everything here works on lists of characters by recursion on the text, so that the pieces of a
cut, put back together with the separator between them, are the text again.
-/

namespace DocComments.Text

/-- Cuts the text at every `separator`. There is always at least one piece, and pieces may be
empty. -/
def splitOn (separator : Char) : List Char → List (List Char)
  | [] => [[]]
  | c :: rest =>
    if c == separator then
      [] :: splitOn separator rest
    else
      match splitOn separator rest with
      | [] => [[c]]
      | piece :: pieces => (c :: piece) :: pieces

/-- Puts the pieces together with `separator` between neighbours. -/
def joinWith (separator : List Char) : List (List Char) → List Char
  | [] => []
  | [piece] => piece
  | piece :: next :: pieces => piece ++ separator ++ joinWith separator (next :: pieces)

/-- The segments of a dotted path, in order. -/
def segments (path : String) : List String :=
  (splitOn '.' path.toList).map String.ofList

/-- The dotted path of segments. -/
def joinSegments (names : List String) : String :=
  String.ofList (joinWith ['.'] (names.map String.toList))

/-- Writes `replacement` for every occurrence of `target`. -/
def replace (target : Char) (replacement : List Char) (text : List Char) : List Char :=
  text.flatMap fun c => if c == target then replacement else [c]

/-- Cuts around the first occurrence of `target`: what stands before it and what after it. -/
def splitFirst? (target : Char) : List Char → Option (List Char × List Char)
  | [] => none
  | c :: rest =>
    if c == target then
      some ([], rest)
    else
      (splitFirst? target rest).map fun (before, after) => (c :: before, after)

/-- Cuts around the first place where `first` is directly followed by `second`. -/
def splitFirstPair? (first second : Char) : List Char → Option (List Char × List Char)
  | [] => none
  | [_] => none
  | c :: d :: rest =>
    if c == first && d == second then
      some ([], rest)
    else
      (splitFirstPair? first second (d :: rest)).map fun (before, after) => (c :: before, after)

/-- How often `target` occurs. -/
def count (target : Char) (text : List Char) : Nat :=
  (text.filter (· == target)).length

/-- Lexicographic order by code point, which is also the order of the UTF-8 bytes. -/
def notAfter : List Char → List Char → Bool
  | [], _ => true
  | _ :: _, [] => false
  | c :: first, d :: second =>
    if c == d then notAfter first second else Nat.blt c.toNat d.toNat

end DocComments.Text
