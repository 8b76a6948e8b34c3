/-
This file turns declared names into absolute paths.

A name is a dotted path. Leading dots make it relative to an earlier declaration of the same
file: the history keeps the paths declared so far, and as many leading dots as there are pick
the entry at that place, counted from one. The segments after the dots are put below it. A name
without leading dots is absolute.

Every resolved name is added to the history and displaces what stood at its place and after it.
An absolute name displaces everything, a name with one segment after its dots displaces what
comes after the entry it refers to, and a name with more segments leaves one entry more. A name
that has no path displaces nothing.
-/

import DocComments.Diagnostic
import DocComments.Text.Pieces

namespace DocComments

/-- Why a declared name has no path. -/
inductive PathError where
  | invalid (name : String)
  | noParent (name : String) (depth available : Nat)
deriving DecidableEq, Repr

namespace PathError

/-- The message of an error. -/
def message : PathError → String
  | .invalid name => s!"invalid element path `{name}`"
  | .noParent name depth available =>
    s!"element path `{name}` refers to parent {depth}, but only {available} declared before it"

def code : PathError → Code
  | .invalid _ => .invalidElementPath
  | .noParent _ _ _ => .noParentElement

/-- How to mend an error. -/
def help : PathError → String
  | .invalid _ => "element paths are dot-separated names, with optional leading dots"
  | .noParent _ _ _ =>
    "declare the parent element earlier in the file, or use fewer leading dots"

/-- The error as a diagnostic without labels. -/
def diagnostic (error : PathError) : Diagnostic :=
  .plain error.code error.message (some error.help)

end PathError

/-- The paths declared so far in a file, oldest first. -/
structure History where
  paths : List String
deriving DecidableEq, Repr

namespace History

/-- The history at the start of a file. -/
def empty : History :=
  ⟨[]⟩

/-- The history after a path that keeps the first `kept` entries. -/
def push (history : History) (kept : Nat) (path : String) : History :=
  ⟨history.paths.take kept ++ [path]⟩

/-- Declares a name with this many leading dots, with these segments between them and its last
segment. -/
def declareSegments (history : History) (declared : String) (dots : Nat) (inner : List String)
    (leaf : String) : Except PathError String × History :=
  match dots with
  | 0 =>
    if inner.any String.isEmpty then
      (.error (.invalid declared), history)
    else
      let path := Text.joinSegments (inner ++ [leaf])
      (.ok path, history.push 0 path)
  | entry + 1 =>
    match history.paths[entry]? with
    | none =>
      (.error (.noParent declared (history.paths.length + 1) history.paths.length), history)
    | some parent =>
      if inner.any String.isEmpty then
        (.error (.invalid declared), history)
      else
        let path := Text.joinSegments (parent :: inner ++ [leaf])
        (.ok path, history.push (if inner.isEmpty then entry + 1 else entry + 2) path)

/-- Declares a name: its absolute path, or why it has none, and the history afterwards. A name may
not end in a dot and may not have an empty segment after its leading dots. -/
def declare (history : History) (declared : String) : Except PathError String × History :=
  let segments := Text.segments declared
  let leaf := segments.getLast?.getD ""
  let parents := segments.dropLast
  if leaf.isEmpty then
    (.error (.invalid declared), history)
  else
    history.declareSegments declared (parents.takeWhile String.isEmpty).length
      (parents.dropWhile String.isEmpty) leaf

/-- The absolute path of a declared name, and the history with it, for those that stop at the first
name that has none. -/
def resolve (history : History) (declared : String) : Except PathError (String × History) :=
  match history.declare declared with
  | (.ok path, later) => .ok (path, later)
  | (.error error, _) => .error error

end History

end DocComments
