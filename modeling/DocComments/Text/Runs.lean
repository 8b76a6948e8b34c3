/-
This file gives sets of code points as runs.

A set is written as the increasing list of the places where it starts and stops: the first
number begins the first run, the second is the first code point after it, and so on. A code
point belongs to the set when an odd number of these bounds lies at or below it.
-/

namespace DocComments.Text

/-- Whether the code point lies in one of the runs that `bounds` delimits. -/
def inRuns (bounds : List Nat) (code : Nat) : Bool :=
  (bounds.takeWhile (fun bound => Nat.ble bound code)).length % 2 == 1

end DocComments.Text
