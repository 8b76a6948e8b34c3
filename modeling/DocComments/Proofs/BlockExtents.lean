/-
This file proves which lines of a source the blocks of a scan take up, and what their texts are.

The extent of a block is its first and its last line. Whether two lines are the extent of a block
can be said without a scan: the first one opens, and either the rest of it closes, or neither this
rest nor a line between the two closes, but the last line does. A list of extents covers a source
if they follow each other and no other line opens, up to a line that opens a block which nothing
closes, or else to the end. There is only one such list, and the scan finds it.

The proof reads the list from its front. A line that opens nothing may be passed over, one that
opens a block must begin the next extent, and one that opens a block for good ends the list; the
scan does the same, since inside a block it looks for nothing but the first line that closes it.
-/

import DocComments.Proofs.BlockLines
import DocComments.Proofs.Indentation
import DocComments.Proofs.ReportedLines

namespace DocComments

/-! ### Extents -/

/-- The extent of a block: its first and its last line. -/
def Block.extent (block : Block) : Nat × Nat :=
  (block.startLine, block.endLine)

/-- The content of the line with this number, where the first line has number one. -/
def contentAt (lines : List (List Char)) : Nat → Option (List Char)
  | 0 => none
  | index + 1 => lines[index]?.map lineContent

namespace Scanner

/-- What a line has after its opening delimiter, if it opens a block. -/
def remainder? (scanner : Scanner) (lines : List (List Char)) (number : Nat) :
    Option (List Char) :=
  (contentAt lines number).bind fun content =>
    (scanner.opens content).map fun opening => content.drop opening.stop

/-- Whether a line has a closing delimiter. -/
def closesAt (scanner : Scanner) (lines : List (List Char)) (number : Nat) : Bool :=
  (contentAt lines number).any fun content => (scanner.closes content).isSome

/-- Two lines are the first and the last of a block: the first one opens it, and either the rest of
the first closes it, or the last does as the first after it. -/
def Encloses (scanner : Scanner) (lines : List (List Char)) (first last : Nat) : Prop :=
  ∃ rest, scanner.remainder? lines first = some rest ∧
    ((last = first ∧ (scanner.closes rest).isSome = true) ∨
      (first < last ∧ scanner.closes rest = none ∧
        (∀ number, first < number → number < last → scanner.closesAt lines number = false) ∧
        scanner.closesAt lines last = true))

/-- A line opens a block that neither the rest of it nor any later line closes. -/
def OpensForGood (scanner : Scanner) (lines : List (List Char)) (number : Nat) : Prop :=
  ∃ rest, scanner.remainder? lines number = some rest ∧ scanner.closes rest = none ∧
    ∀ later, number < later → scanner.closesAt lines later = false

/-- A line belongs to none of these extents. -/
def IsOutside (extents : List (Nat × Nat)) (number : Nat) : Prop :=
  ∀ extent ∈ extents, number < extent.1 ∨ extent.2 < number

/-- Extents cover the lines from `start` on: they follow each other, each is the extent of a block,
and no other line opens before `stop`, where the lines end or a block opens for good. -/
structure Covers (scanner : Scanner) (lines : List (List Char)) (start : Nat)
    (extents : List (Nat × Nat)) : Prop where
  begins : ∀ extent ∈ extents, start ≤ extent.1
  ordered : extents.Pairwise fun earlier later => earlier.2 < later.1
  encloses : ∀ extent ∈ extents, scanner.Encloses lines extent.1 extent.2
  others : ∃ stop, start ≤ stop ∧
    (stop = lines.length + 1 ∨ scanner.OpensForGood lines stop) ∧
    (∀ extent ∈ extents, extent.2 < stop) ∧
    ∀ number, start ≤ number → number < stop → IsOutside extents number →
      scanner.remainder? lines number = none

variable {scanner : Scanner} {lines : List (List Char)} {start first last number : Nat}
  {extents : List (Nat × Nat)} {rest : List Char}

theorem le_length_of_remainder? (opens : scanner.remainder? lines number = some rest) :
    number ≤ lines.length := by
  obtain ⟨content, found, -⟩ := Option.bind_eq_some_iff.mp opens
  cases number with
  | zero => exact Nat.zero_le _
  | succ index =>
    obtain ⟨line, inside, -⟩ := Option.map_eq_some_iff.mp found
    exact (List.getElem?_eq_some_iff.mp inside).1

theorem Encloses.first_le_last (encloses : scanner.Encloses lines first last) : first ≤ last := by
  obtain ⟨rest, -, ⟨same, -⟩ | ⟨later, -⟩⟩ := encloses
  · exact Nat.le_of_eq same.symm
  · exact Nat.le_of_lt later

/-- A block ends at one line only. -/
theorem Encloses.last_unique {other : Nat} (encloses : scanner.Encloses lines first last)
    (encloses' : scanner.Encloses lines first other) : last = other := by
  obtain ⟨rest, opens, closed⟩ := encloses
  obtain ⟨rest', opens', closed'⟩ := encloses'
  obtain rfl : rest = rest' := Option.some.inj (opens.symm.trans opens')
  rcases closed with ⟨rfl, here⟩ | ⟨later, notHere, between, closes⟩
  · rcases closed' with ⟨rfl, -⟩ | ⟨-, notHere, -⟩
    · rfl
    · rw [notHere] at here
      cases here
  · rcases closed' with ⟨-, here⟩ | ⟨later', -, between', closes'⟩
    · rw [notHere] at here
      cases here
    · -- The earlier of two different ends would lie strictly inside the other extent.
      rcases Nat.lt_trichotomy last other with earlier | same | earlier
      · rw [between' last later earlier] at closes
        cases closes
      · exact same
      · rw [between other later' earlier] at closes'
        cases closes'

theorem OpensForGood.not_encloses (forGood : scanner.OpensForGood lines first) :
    ¬ scanner.Encloses lines first last := by
  obtain ⟨rest, opens, notHere, never⟩ := forGood
  rintro ⟨rest', opens', closed⟩
  obtain rfl : rest = rest' := Option.some.inj (opens.symm.trans opens')
  rcases closed with ⟨-, here⟩ | ⟨later, -, -, closes⟩
  · rw [notHere] at here
    cases here
  · rw [never last later] at closes
    cases closes

namespace Covers

/-- A line that opens begins an extent if any extent is left. -/
theorem exists_extent_of_opens (covers : scanner.Covers lines start extents)
    (opens : scanner.remainder? lines start = some rest) :
    scanner.OpensForGood lines start ∧ extents = [] ∨ ∃ last, (start, last) ∈ extents := by
  obtain ⟨begins, -, encloses, stop, reached, ends, before, others⟩ := covers
  rcases Nat.lt_or_eq_of_le reached with later | rfl
  · refine .inr (Classical.byContradiction fun none => ?_)
    have outside : IsOutside extents start := fun extent member =>
      .inl (Nat.lt_of_le_of_ne (begins extent member) fun same =>
        none ⟨extent.2, same ▸ member⟩)
    rw [others start (Nat.le_refl _) later outside] at opens
    cases opens
  · have inside := le_length_of_remainder? opens
    refine .inl ⟨ends.resolve_left (by omega), List.eq_nil_iff_forall_not_mem.mpr ?_⟩
    intro extent member
    have bounds := (encloses extent member).first_le_last
    have earlier := before extent member
    have later := begins extent member
    omega

end Covers

/-- A line that opens nothing may be passed over. -/
theorem covers_iff_of_remainder?_eq_none (inside : start ≤ lines.length)
    (opensNot : scanner.remainder? lines start = none) :
    scanner.Covers lines start extents ↔ scanner.Covers lines (start + 1) extents := by
  constructor
  · rintro ⟨begins, ordered, encloses, stop, reached, ends, before, others⟩
    refine ⟨fun extent member => ?_, ordered, encloses, stop, ?_, ends, before, ?_⟩
    · refine Nat.lt_of_le_of_ne (begins extent member) fun same => ?_
      obtain ⟨rest, opens, -⟩ := encloses extent member
      rw [← same, opensNot] at opens
      cases opens
    · refine Nat.lt_of_le_of_ne reached ?_
      rintro rfl
      rcases ends with atEnd | ⟨rest, opens, -⟩
      · omega
      · rw [opensNot] at opens
        cases opens
    · exact fun number after => others number (Nat.le_of_succ_le after)
  · rintro ⟨begins, ordered, encloses, stop, reached, ends, before, others⟩
    refine ⟨fun extent member => Nat.le_of_succ_le (begins extent member), ordered, encloses,
      stop, Nat.le_of_succ_le reached, ends, before, fun number after => ?_⟩
    rcases Nat.lt_or_eq_of_le after with later | rfl
    · exact others number later
    · exact fun _ _ => opensNot

/-- A line that opens a block begins the first extent, and the others come after its end. -/
theorem covers_iff_of_encloses (block : scanner.Encloses lines start last) :
    scanner.Covers lines start extents ↔
      ∃ others, extents = (start, last) :: others ∧ scanner.Covers lines (last + 1) others := by
  have nonempty := block.first_le_last
  constructor
  · intro covers
    have ⟨rest, opens, _⟩ := block
    obtain ⟨own, member⟩ : ∃ own, (start, own) ∈ extents :=
      (covers.exists_extent_of_opens opens).resolve_left fun ⟨never, _⟩ =>
        never.not_encloses block
    obtain ⟨begins, ordered, encloses, stop, -, ends, before, others⟩ := covers
    obtain rfl : own = last := (encloses _ member).last_unique block
    cases extents with
    | nil => cases member
    | cons head tail =>
      obtain ⟨after, orderedTail⟩ := List.pairwise_cons.mp ordered
      -- The extent of this line is the head: the head begins no earlier, and ends before others.
      obtain rfl : (start, own) = head := by
        rcases List.mem_cons.mp member with same | inTail
        · exact same
        · have earlier := after _ inTail
          have bounds := (encloses head List.mem_cons_self).first_le_last
          have later := begins head List.mem_cons_self
          simp only at earlier
          omega
      refine ⟨tail, rfl, after, orderedTail,
        fun extent inTail => encloses extent (List.mem_cons_of_mem _ inTail), stop,
        before _ List.mem_cons_self, ends,
        fun extent inTail => before extent (List.mem_cons_of_mem _ inTail), ?_⟩
      intro number later earlier outside
      refine others number (by omega) earlier ?_
      exact List.forall_mem_cons.mpr ⟨.inr later, outside⟩
  · rintro ⟨tail, rfl, begins, ordered, encloses, stop, reached, ends, before, others⟩
    refine ⟨List.forall_mem_cons.mpr ⟨Nat.le_refl _, fun extent member => ?_⟩,
      List.pairwise_cons.mpr ⟨begins, ordered⟩, List.forall_mem_cons.mpr ⟨block, encloses⟩, stop,
      by omega, ends, List.forall_mem_cons.mpr ⟨reached, before⟩, ?_⟩
    · have later := begins extent member
      omega
    · intro number after earlier outside
      obtain ⟨notOwn, outsideTail⟩ := List.forall_mem_cons.mp outside
      exact others number (notOwn.resolve_left (Nat.not_lt_of_le after)) earlier outsideTail

/-- Nothing follows a line that opens a block for good. -/
theorem covers_iff_of_opensForGood (forGood : scanner.OpensForGood lines start) :
    scanner.Covers lines start extents ↔ extents = [] := by
  constructor
  · intro covers
    have ⟨rest, opens, _⟩ := forGood
    rcases covers.exists_extent_of_opens opens with ⟨-, empty⟩ | ⟨last, member⟩
    · exact empty
    · exact absurd (covers.encloses _ member) forGood.not_encloses
  · rintro rfl
    exact ⟨nofun, .nil, nofun, start, Nat.le_refl _, .inr forGood, nofun,
      fun number after before => absurd before (Nat.not_lt_of_le after)⟩

/-- There are no extents after the last line. -/
theorem covers_length_succ_iff :
    scanner.Covers lines (lines.length + 1) extents ↔ extents = [] := by
  constructor
  · rintro ⟨begins, -, encloses, -⟩
    refine List.eq_nil_iff_forall_not_mem.mpr fun extent member => ?_
    obtain ⟨rest, opens, -⟩ := encloses extent member
    exact absurd (le_length_of_remainder? opens) (Nat.not_le_of_lt (begins extent member))
  · rintro rfl
    exact ⟨nofun, .nil, nofun, lines.length + 1, Nat.le_refl _, .inl rfl, nofun,
      fun number after before => absurd before (Nat.not_lt_of_le after)⟩

/-! ### The scan -/

/-- The content of a line after the lines `done`. -/
theorem contentAt_append (done lines : List (List Char)) (index : Nat) :
    contentAt (done ++ lines) (done.length + (index + 1)) = lines[index]?.map lineContent := by
  rw [← Nat.add_assoc, contentAt, List.getElem?_append_right (Nat.le_add_right _ _),
    Nat.add_sub_cancel_left]

theorem contentAt_length_succ (done : List (List Char)) (line : List Char)
    (later : List (List Char)) :
    contentAt (done ++ line :: later) (done.length + 1) = some (lineContent line) :=
  contentAt_append done (line :: later) 0

/-- No line of a part closes anything if none of them has a closing delimiter. -/
theorem closesAt_eq_false {inner : List (List Char)}
    (closesNot : ∀ line ∈ inner, scanner.closes (lineContent line) = none)
    (done later : List (List Char)) (after : done.length < number)
    (inside : number ≤ done.length + inner.length) :
    scanner.closesAt (done ++ (inner ++ later)) number = false := by
  obtain ⟨index, rfl⟩ := Nat.exists_eq_add_of_lt after
  have within : index < inner.length := by omega
  rw [closesAt, Nat.add_assoc, contentAt_append, List.getElem?_append_left within,
    List.getElem?_eq_getElem within, Option.map_some, Option.any_some,
    closesNot _ (List.getElem_mem within)]
  rfl

/-- No line after the first has a closing delimiter if by their numbers none of them closes
anything. -/
theorem closesNot_of_closesAt {done inner later : List (List Char)} {line : List Char}
    (split : lines = done ++ line :: (inner ++ later))
    (notThere : ∀ number, done.length + 1 < number → number < done.length + inner.length + 2 →
      scanner.closesAt lines number = false) :
    ∀ other ∈ inner, scanner.closes (lineContent other) = none := by
  intro other inside
  obtain ⟨index, within, rfl⟩ := List.getElem_of_mem inside
  have notHere := notThere (done.length + (index + 1 + 1)) (by omega) (by omega)
  rw [closesAt, split, contentAt_append, List.getElem?_cons_succ, List.getElem?_append_left within,
    List.getElem?_eq_getElem within] at notHere
  simpa using notHere

theorem closesAt_of_length_lt (after : lines.length < number) :
    scanner.closesAt lines number = false := by
  obtain ⟨index, rfl⟩ := Nat.exists_eq_add_of_lt after
  rw [closesAt, contentAt, List.getElem?_eq_none (Nat.le_add_right _ _)]
  rfl

/-- Inside a block, lines that close nothing only add to its text. -/
theorem scanLines_inside (scanner : Scanner) {inner : List (List Char)}
    (closesNot : ∀ line ∈ inner, scanner.closes (lineContent line) = none)
    (number offset startLine startOffset column : Nat) (text : List Char)
    (lines : List (List Char)) :
    ∃ longer, scanner.scanLines number offset (.inside startLine startOffset column text)
        (inner ++ lines) =
      scanner.scanLines (number + inner.length) (offset + Text.byteLength inner.flatten)
        (.inside startLine startOffset column longer) lines := by
  induction inner generalizing number offset text with
  | nil => exact ⟨text, rfl⟩
  | cons line inner inductionHypothesis =>
    obtain ⟨closesNotHere, closesNotLater⟩ := List.forall_mem_cons.mp closesNot
    obtain ⟨longer, goesOn⟩ := inductionHypothesis closesNotLater (number + 1)
      (offset + Text.byteLength line)
      (text ++ (scanner.strip column (lineContent line) ++ ['\n']))
    refine ⟨longer, ?_⟩
    rw [List.cons_append, scanLines]
    simp only [closesNotHere]
    rw [goesOn, List.length_cons, List.flatten_cons, Text.byteLength_append, Nat.add_assoc number,
      Nat.add_comm 1, Nat.add_assoc offset]

/-- Either no line closes anything, or there is a first one that does. -/
theorem closesNot_or_first (scanner : Scanner) (lines : List (List Char)) :
    (∀ line ∈ lines, scanner.closes (lineContent line) = none) ∨
    ∃ inner last later closing, lines = inner ++ last :: later ∧
      (∀ line ∈ inner, scanner.closes (lineContent line) = none) ∧
      scanner.closes (lineContent last) = some closing := by
  cases found : lines.find? fun line => (scanner.closes (lineContent line)).isSome with
  | none =>
    refine .inl fun line member => ?_
    simpa using List.find?_eq_none.mp found line member
  | some last =>
    obtain ⟨closes, inner, later, split, before⟩ := List.find?_eq_some_iff_append.mp found
    obtain ⟨closing, closed⟩ := Option.isSome_iff_exists.mp closes
    exact .inr ⟨inner, last, later, closing, split,
      fun line member => by simpa using before line member, closed⟩

/-! ### The lines that a scan passes over -/

variable {done later : List (List Char)} {line : List Char} {opening : Range}

theorem remainder?_length_succ (scanner : Scanner) (done : List (List Char)) (line : List Char)
    (later : List (List Char)) :
    scanner.remainder? (done ++ line :: later) (done.length + 1) =
      (scanner.opens (lineContent line)).map fun opening =>
        (lineContent line).drop opening.stop := by
  rw [remainder?, contentAt_length_succ, Option.bind_some]

theorem opensForGood_of_closesNot (opens : scanner.opens (lineContent line) = some opening)
    (notHere : scanner.closes ((lineContent line).drop opening.stop) = none)
    (never : ∀ other ∈ later, scanner.closes (lineContent other) = none) :
    scanner.OpensForGood (done ++ line :: later) (done.length + 1) := by
  refine ⟨_, (remainder?_length_succ scanner done line later).trans (by rw [opens]; rfl), notHere,
    fun number after => ?_⟩
  rcases Nat.lt_or_ge (done ++ line :: later).length number with past | inside
  · exact closesAt_of_length_lt past
  · rw [List.length_append, List.length_cons] at inside
    have doneLength : (done ++ [line]).length = done.length + 1 := List.length_append
    have within := closesAt_eq_false never (done ++ [line]) [] (doneLength ▸ after) (by omega)
    rwa [List.append_nil, List.append_assoc, List.singleton_append] at within

theorem encloses_of_first {inner : List (List Char)} {last : List Char} {closing : Range}
    (opens : scanner.opens (lineContent line) = some opening)
    (notHere : scanner.closes ((lineContent line).drop opening.stop) = none)
    (closesNot : ∀ other ∈ inner, scanner.closes (lineContent other) = none)
    (closed : scanner.closes (lineContent last) = some closing) :
    scanner.Encloses (done ++ line :: (inner ++ last :: later)) (done.length + 1)
      (done.length + 1 + 1 + inner.length) := by
  refine ⟨_, (remainder?_length_succ scanner done line _).trans (by rw [opens]; rfl),
    .inr ⟨by omega, notHere, fun number after before => ?_, ?_⟩⟩
  · have doneLength : (done ++ [line]).length = done.length + 1 := List.length_append
    have within := closesAt_eq_false closesNot (done ++ [line]) (last :: later)
      (doneLength ▸ after) (by omega)
    rwa [List.append_assoc, List.singleton_append] at within
  · have lastContent := contentAt_append done (line :: (inner ++ last :: later)) (inner.length + 1)
    rw [List.getElem?_cons_succ, List.getElem?_append_right (Nat.le_refl _), Nat.sub_self,
      List.getElem?_cons_zero, Option.map_some] at lastContent
    rw [closesAt, show done.length + 1 + 1 + inner.length = done.length + (inner.length + 1 + 1) by
      omega, lastContent, Option.any_some, closed]
    rfl

/-- Where a block is found, the extents go on as the blocks do. -/
theorem covers_iff_of_block {block : Block} {blocks : List Block}
    (encloses : scanner.Encloses lines first last) (extent : block.extent = (first, last))
    (goesOn : ∀ others, scanner.Covers lines (last + 1) others ↔
      others = blocks.map Block.extent) :
    scanner.Covers lines first extents ↔ extents = (block :: blocks).map Block.extent := by
  rw [covers_iff_of_encloses encloses]
  simp only [goesOn, exists_eq_right, List.map_cons, extent]

/-- From any line on, outside of blocks, the extents that cover the lines are those of the blocks
that the scan finds. The induction is on the number of lines left: a line outside of blocks is
passed over alone, or together with all lines of the block that it opens. -/
theorem covers_iff_scanLines (scanner : Scanner) (done lines : List (List Char)) (offset : Nat)
    (extents : List (Nat × Nat)) :
    scanner.Covers (done ++ lines) (done.length + 1) extents ↔
      extents = (scanner.scanLines (done.length + 1) offset .outside lines).map Block.extent := by
  induction count : lines.length using Nat.strongRecOn generalizing done lines offset extents with
  | ind size inductionHypothesis =>
  -- What is known of the lines after a part of them, once this part is done with.
  have goesOn (part later : List (List Char)) (shorter : later.length < size) (bytes : Nat)
      (others : List (Nat × Nat)) :
      scanner.Covers (done ++ (part ++ later)) (done.length + part.length + 1) others ↔
        others = (scanner.scanLines (done.length + part.length + 1) bytes .outside later).map
          Block.extent := by
    have next := inductionHypothesis later.length shorter (done ++ part) later bytes others rfl
    rwa [List.append_assoc, List.length_append] at next
  cases lines with
  | nil =>
    rw [List.append_nil]
    exact covers_length_succ_iff
  | cons line lines =>
    have remainder := scanner.remainder?_length_succ done line lines
    rw [List.length_cons] at count
    rw [scanLines]
    cases opens : scanner.opens (lineContent line) with
    | none =>
      rw [opens, Option.map_none] at remainder
      rw [covers_iff_of_remainder?_eq_none (by simp) remainder]
      exact goesOn [line] lines (by omega) _ extents
    | some opening =>
      rw [opens, Option.map_some] at remainder
      simp only
      cases closes : scanner.closes ((lineContent line).drop opening.stop) with
      | some closing =>
        have block : scanner.Encloses (done ++ line :: lines) (done.length + 1)
            (done.length + 1) := ⟨_, remainder, .inl ⟨rfl, by rw [closes]; rfl⟩⟩
        exact covers_iff_of_block block rfl (goesOn [line] lines (by omega) _)
      | none =>
        rcases scanner.closesNot_or_first lines with
          never | ⟨inner, last, later, closing, rfl, closesNot, closed⟩
        · obtain ⟨longer, ended⟩ := scanner.scanLines_inside never (done.length + 1 + 1)
            (offset + Text.byteLength line) (done.length + 1) offset opening.stop
            (scanner.strip 0 ((lineContent line).drop opening.stop) ++ ['\n']) []
          rw [List.append_nil] at ended
          rw [covers_iff_of_opensForGood (opensForGood_of_closesNot opens closes never), ended]
          rfl
        · obtain ⟨longer, reached⟩ := scanner.scanLines_inside closesNot (done.length + 1 + 1)
            (offset + Text.byteLength line) (done.length + 1) offset opening.stop
            (scanner.strip 0 ((lineContent line).drop opening.stop) ++ ['\n']) (last :: later)
          rw [reached, scanLines]
          simp only [closed]
          refine covers_iff_of_block (encloses_of_first opens closes closesNot closed) rfl ?_
          rw [List.length_append, List.length_cons] at count
          have next := goesOn (line :: (inner ++ [last])) later (by omega)
          rw [show line :: (inner ++ [last]) ++ later = line :: (inner ++ last :: later) by simp,
            show done.length + (line :: (inner ++ [last])).length + 1 =
              done.length + 1 + 1 + inner.length + 1 by simp; omega] at next
          exact next _

theorem covers_iff_scan (scanner : Scanner) (source : List Char) (extents : List (Nat × Nat)) :
    scanner.Covers (splitLines source) 1 extents ↔
      extents = (scanner.scan source).map Block.extent :=
  scanner.covers_iff_scanLines [] (splitLines source) 0 extents

theorem encloses_of_mem_scan {source : List Char} {block : Block}
    (member : block ∈ scanner.scan source) :
    scanner.Encloses (splitLines source) block.startLine block.endLine :=
  ((scanner.covers_iff_scan source _).mpr rfl).encloses _ (List.mem_map_of_mem member)

/-! ### Texts -/

/-- A block takes its excerpts up to the first line that closes it. -/
theorem laterExcerpts_of_first {inner : List (List Char)} {last : List Char} {closing : Range}
    (closesNot : ∀ other ∈ inner, scanner.closes (lineContent other) = none)
    (closed : scanner.closes (lineContent last) = some closing) (column : Nat)
    (later : List (List Char)) :
    scanner.laterExcerpts column (inner ++ last :: later) =
      (inner.map fun line => scanner.excerpt column (lineContent line)) ++
        [scanner.excerpt column ((lineContent last).take closing.start)] := by
  induction inner with
  | nil => simp only [List.nil_append, laterExcerpts, closed, List.map_nil]
  | cons line inner inductionHypothesis =>
    obtain ⟨closesNotHere, closesNotLater⟩ := List.forall_mem_cons.mp closesNot
    simp only [List.cons_append, laterExcerpts, closesNotHere, List.map_cons,
      inductionHypothesis closesNotLater]

/-- The lines of the text of a block on several lines, without their line feeds: what stripping
leaves of the rest of the first line, of each line between, and of the last line before its
delimiter, unless nothing is left of that. -/
def textLines (scanner : Scanner) (column : Nat) (rest : List Char) (inner : List (List Char))
    (last : List Char) : List (List Char) :=
  (scanner.strip 0 rest :: inner.map (scanner.strip column)) ++
    if (scanner.strip column last).isEmpty then [] else [scanner.strip column last]

theorem flatMap_textLines (scanner : Scanner) (column : Nat) (rest : List Char)
    (inner : List (List Char)) (last : List Char) :
    (scanner.textLines column rest inner last).flatMap (· ++ ['\n']) =
      (scanner.strip 0 rest ++ ['\n']) ++
        ((inner.flatMap fun content => scanner.strip column content ++ ['\n']) ++
          closingText (scanner.strip column last)) := by
  rw [textLines, closingText, List.flatMap_append, List.flatMap_cons, List.flatMap_map,
    List.append_assoc]
  split
  · rfl
  · rw [List.flatMap_singleton]

variable {source : List Char} {block : Block}

theorem lineFeed_notMem_of_mem_splitLines {line : List Char} (member : line ∈ splitLines source) :
    '\n' ∉ lineContent line := by
  obtain ⟨before, later, lines⟩ := List.append_of_mem member
  exact lineFeed_notMem_lineContent (fed_of_splitLines lines).2

theorem lineFeed_notMem_strip (scanner : Scanner) (column : Nat) {content : List Char}
    (noFeed : '\n' ∉ content) : '\n' ∉ scanner.strip column content := fun inside =>
  noFeed (List.mem_of_mem_drop ((scanner.excerpt_isOf column content).subset inside))

theorem lineFeed_notMem_textLines (column : Nat) {rest : List Char} {inner : List (List Char)}
    {last : List Char} (noFeedRest : '\n' ∉ rest) (noFeedInner : ∀ content ∈ inner, '\n' ∉ content)
    (noFeedLast : '\n' ∉ last) :
    ∀ text ∈ scanner.textLines column rest inner last, '\n' ∉ text := by
  have stripped {content : List Char} := @lineFeed_notMem_strip scanner column content
  refine List.forall_mem_append.mpr ⟨List.forall_mem_cons.mpr
    ⟨scanner.lineFeed_notMem_strip 0 noFeedRest, ?_⟩, ?_⟩
  · exact List.forall_mem_map.mpr fun content member => stripped (noFeedInner content member)
  · split
    · exact List.forall_mem_nil _
    · exact List.forall_mem_singleton.mpr (stripped noFeedLast)

/-- Lines that are stripped to texts without line feeds are the lines of what they make. -/
theorem splitLines_flatMap_feed {texts : List (List Char)} (noFeed : ∀ text ∈ texts, '\n' ∉ text) :
    splitLines (texts.flatMap (· ++ ['\n'])) = texts.map (· ++ ['\n']) := by
  induction texts with
  | nil => rfl
  | cons text texts inductionHypothesis =>
    obtain ⟨noFeedHere, noFeedLater⟩ := List.forall_mem_cons.mp noFeed
    have fed : FedLine (text ++ ['\n']) := ⟨text, rfl, noFeedHere⟩
    rw [List.flatMap_cons, fed.splitLines_append, inductionHypothesis noFeedLater, List.map_cons]

/-- The lines that a scanned block on several lines stands on, and the text that it makes of
them. -/
theorem exists_lines_of_severalLines (member : block ∈ scanner.scan source)
    (several : block.startLine < block.endLine) :
    ∃ (before inner later : List (List Char)) (firstLine lastLine : List Char)
      (opening closing : Range),
      splitLines source = before ++ firstLine :: (inner ++ lastLine :: later) ∧
      block.startLine = before.length + 1 ∧ block.endLine = before.length + inner.length + 2 ∧
      scanner.opens (lineContent firstLine) = some opening ∧
      scanner.closes (lineContent lastLine) = some closing ∧
      block.text = (scanner.textLines opening.stop ((lineContent firstLine).drop opening.stop)
        (inner.map lineContent) ((lineContent lastLine).take closing.start)).flatMap
          (· ++ ['\n']) := by
  obtain ⟨before, opened, lastLine, later, lines, stands, whole, last, taken, -, text⟩ :=
    scanner.standsOn_of_mem_scan member
  obtain ⟨rest, opens, closed⟩ := encloses_of_mem_scan member
  obtain ⟨-, notHere, between, closes⟩ := closed.resolve_left fun single =>
    Nat.ne_of_gt several single.1
  have startLine := stands.startLine
  have endLine := stands.endLine
  obtain ⟨firstLine, inner, rfl⟩ := List.exists_cons_of_length_pos (show 0 < opened.length by omega)
  rw [List.append_assoc, List.cons_append] at lines
  rw [List.length_cons] at endLine
  -- What is known of numbered lines, as facts about the lines themselves.
  rw [startLine, lines, remainder?_length_succ] at opens
  obtain ⟨opening, opensFirst, rfl⟩ := Option.map_eq_some_iff.mp opens
  have closesNot : ∀ line ∈ inner, scanner.closes (lineContent line) = none :=
    closesNot_of_closesAt lines fun number after before =>
      between number (by omega) (by omega)
  obtain ⟨closing, closesLast⟩ :
      ∃ closing, scanner.closes (lineContent lastLine) = some closing := by
    rw [endLine, closesAt, lines, Nat.add_assoc, contentAt_append, List.getElem?_cons_succ,
      List.getElem?_append_right (Nat.le_refl _), Nat.sub_self] at closes
    exact Option.isSome_iff_exists.mp closes
  refine ⟨before, inner, later, firstLine, lastLine, opening, closing, lines, startLine, by omega,
    opensFirst, closesLast, ?_⟩
  simp only [List.cons_append, excerpts, opensFirst, notHere] at taken
  rw [laterExcerpts_of_first closesNot closesLast, ← List.cons_append] at taken
  obtain ⟨rfl, lastEq⟩ := List.append_inj' taken rfl
  obtain rfl := List.singleton_inj.mp lastEq
  rw [text, flatMap_textLines, keptLines_cons]
  simp [keptLines, List.flatMap_map, Excerpt.after, excerpt]

theorem text_of_singleLine (member : block ∈ scanner.scan source)
    (single : block.startLine = block.endLine) :
    ∃ (content : List Char) (opening closing : Range),
      contentAt (splitLines source) block.startLine = some content ∧
      scanner.opens content = some opening ∧
      scanner.closes (content.drop opening.stop) = some closing ∧
      block.text = closingText ((scanner.strip 0
        ((content.drop opening.stop).take closing.start)).dropWhile Text.isBlank) := by
  obtain ⟨before, opened, line, later, lines, stands, whole, last, taken, count, text⟩ :=
    scanner.standsOn_of_mem_scan member
  obtain ⟨rest, opens, closed⟩ := encloses_of_mem_scan member
  obtain ⟨-, closes⟩ := closed.resolve_right fun several => Nat.ne_of_lt several.1 single
  rw [stands.startLine, stands.endLine] at single
  obtain rfl : opened = [] := List.eq_nil_of_length_eq_zero (by omega)
  rw [List.append_nil] at lines
  rw [stands.startLine, lines, remainder?_length_succ] at opens
  obtain ⟨opening, opensLine, rfl⟩ := Option.map_eq_some_iff.mp opens
  obtain ⟨closing, closesRest⟩ := Option.isSome_iff_exists.mp closes
  refine ⟨lineContent line, opening, closing, ?_, opensLine, closesRest, ?_⟩
  · rw [stands.startLine, lines, contentAt_length_succ]
  · simp only [List.nil_append, excerpts, opensLine, closesRest] at taken
    obtain rfl := List.eq_nil_of_length_eq_zero count
    obtain rfl := List.singleton_inj.mp taken
    exact text

/-- The contents of lines in a row, by their numbers. -/
theorem map_contentAt_range' (done inner later : List (List Char)) :
    (List.range' (done.length + 1) inner.length).map (contentAt (done ++ (inner ++ later))) =
      (inner.map lineContent).map some := by
  refine List.ext_getElem (by simp) fun index inRange inInner => ?_
  have within : index < inner.length := by simpa using inRange
  rw [List.getElem_map, List.getElem_range', Nat.one_mul, Nat.add_right_comm, Nat.add_assoc,
    contentAt_append, List.getElem?_append_left within, List.getElem?_eq_getElem within,
    List.getElem_map, List.getElem_map, Option.map_some]

/-- Which blocks a scan finds. Their extents are the one list that covers the lines of the source.
The text of a block on several lines has one line for the rest of its first line, one for every
line between the first and the last, and one for what the last line has before its delimiter if
anything is left of it, each of them stripped; a block on a single line has the text between its
delimiters. -/
theorem scan_covers_lines (scanner : Scanner) (source : List Char) :
    (∀ extents, scanner.Covers (splitLines source) 1 extents ↔
      extents = (scanner.scan source).map Block.extent) ∧
    (∀ block ∈ scanner.scan source, block.startLine < block.endLine →
      ∃ (first last : List Char) (inner : List (List Char)) (opening closing : Range),
        contentAt (splitLines source) block.startLine = some first ∧
        scanner.opens first = some opening ∧
        (List.range' (block.startLine + 1) (block.endLine - block.startLine - 1)).map
          (contentAt (splitLines source)) = inner.map some ∧
        contentAt (splitLines source) block.endLine = some last ∧
        scanner.closes last = some closing ∧
        block.text = (scanner.textLines opening.stop (first.drop opening.stop) inner
          (last.take closing.start)).flatMap (· ++ ['\n']) ∧
        splitLines block.text = (scanner.textLines opening.stop (first.drop opening.stop) inner
          (last.take closing.start)).map (· ++ ['\n'])) ∧
    (∀ block ∈ scanner.scan source, block.startLine = block.endLine →
      ∃ (content : List Char) (opening closing : Range),
        contentAt (splitLines source) block.startLine = some content ∧
        scanner.opens content = some opening ∧
        scanner.closes (content.drop opening.stop) = some closing ∧
        block.text = closingText ((scanner.strip 0
          ((content.drop opening.stop).take closing.start)).dropWhile Text.isBlank)) := by
  refine ⟨scanner.covers_iff_scan source, fun block member several => ?_,
    fun block => text_of_singleLine⟩
  obtain ⟨before, inner, later, firstLine, lastLine, opening, closing, lines, startLine, endLine,
    opens, closes, text⟩ := exists_lines_of_severalLines member several
  have noFeed : ∀ line ∈ firstLine :: (inner ++ lastLine :: later), '\n' ∉ lineContent line :=
    fun line inside => lineFeed_notMem_of_mem_splitLines (lines ▸ List.mem_append_right _ inside)
  refine ⟨lineContent firstLine, lineContent lastLine, inner.map lineContent, opening, closing,
    ?_, opens, ?_, ?_, closes, text, ?_⟩
  · rw [startLine, lines, contentAt_length_succ]
  · have between := map_contentAt_range' (before ++ [firstLine]) inner (lastLine :: later)
    rw [List.append_assoc, List.singleton_append, ← lines, List.length_append,
      List.length_singleton] at between
    rw [startLine, endLine, show before.length + inner.length + 2 - (before.length + 1) - 1 =
      inner.length by omega, between]
  · have found := contentAt_length_succ (before ++ firstLine :: inner) lastLine later
    rw [List.append_assoc, List.cons_append, ← lines, List.length_append, List.length_cons] at found
    rw [endLine, ← found]
    rfl
  · rw [text]
    obtain ⟨noFeedFirst, noFeedLater⟩ := List.forall_mem_cons.mp noFeed
    obtain ⟨noFeedInner, noFeedLast⟩ := List.forall_mem_append.mp noFeedLater
    refine splitLines_flatMap_feed (lineFeed_notMem_textLines _
      (mt List.mem_of_mem_drop noFeedFirst) (List.forall_mem_map.mpr noFeedInner)
      (mt List.mem_of_mem_take (noFeedLast lastLine List.mem_cons_self)))

/-- A block on one line, one on four lines with an empty line inside, and one that nothing
closes. -/
theorem scan_covers_lines_standard :
    DocParser.standard.scanner.Covers
      (splitLines "/** a */\nlet b;\n/** c\n\n    d\n*/\n/** e\n".toList) 1 [(1, 1), (3, 6)] ∧
    ⟨3, 6, Span.between 16 31, " c\n\n d\n".toList⟩ ∈ DocParser.standard.scanner.scan
      "/** a */\nlet b;\n/** c\n\n    d\n*/\n/** e\n".toList ∧
    ∃ (first last : List Char) (inner : List (List Char)) (opening closing : Range),
      contentAt (splitLines "/** a */\nlet b;\n/** c\n\n    d\n*/\n/** e\n".toList) 3 = some first ∧
      contentAt (splitLines "/** a */\nlet b;\n/** c\n\n    d\n*/\n/** e\n".toList) 6 = some last ∧
      inner.length = 2 ∧
      splitLines " c\n\n d\n".toList = (DocParser.standard.scanner.textLines opening.stop
        (first.drop opening.stop) inner (last.take closing.start)).map (· ++ ['\n']) := by
  have scanned : DocParser.standard.scanner.scan
      "/** a */\nlet b;\n/** c\n\n    d\n*/\n/** e\n".toList =
        [⟨1, 1, Span.between 0 8, "a\n".toList⟩,
          ⟨3, 6, Span.between 16 31, " c\n\n d\n".toList⟩] := by
    decide +kernel
  obtain ⟨extents, texts, -⟩ := scan_covers_lines DocParser.standard.scanner
    "/** a */\nlet b;\n/** c\n\n    d\n*/\n/** e\n".toList
  have member : ⟨3, 6, Span.between 16 31, " c\n\n d\n".toList⟩ ∈
      DocParser.standard.scanner.scan
        "/** a */\nlet b;\n/** c\n\n    d\n*/\n/** e\n".toList := by
    rw [scanned]
    exact List.mem_cons_of_mem _ List.mem_cons_self
  obtain ⟨first, last, inner, opening, closing, atFirst, -, between, atLast, -, -, lines⟩ :=
    texts _ member (by decide)
  refine ⟨(extents _).mpr (by rw [scanned]; rfl), member, first, last, inner, opening, closing,
    atFirst, atLast, ?_, lines⟩
  have count := congrArg List.length between
  rw [List.length_map, List.length_map, List.length_range'] at count
  exact count.symm

end Scanner

end DocComments
