/-
This file compares sources that say the same in other places.

Two sources are alike when they have as many lines, and the content of every line of the second
is an indent followed by the content of that line in the first; the indent may be empty, and how
a line ends is left open. Their scans go in step. A block that is open in one is open in the
other, with the same text and with as many more characters to strip as the indent has, so an
indent that the searches of the scanner pass over is stripped again from every line. What is left
of the difference are the bytes that blocks cover.

Bytes matter to a parse only for the labels of a refusal. Alike sources therefore declare the
same elements, or are refused with the same code, message and hint.
-/

import DocComments.Proofs.Parsing

namespace DocComments

/-! ### Parses without places -/

/-- The block by its lines and its text, whatever bytes it covers. -/
def Block.unplaced (block : Block) : Block :=
  { block with span := Span.between 0 0 }

/-- The diagnostic by its code, its message and its hint, whatever it points at. -/
def Diagnostic.unlabelled (diagnostic : Diagnostic) : Diagnostic :=
  { diagnostic with labels := [] }

/-- Locating a refusal only adds labels. -/
theorem Rejection.unlabelled_locate (rejection : Rejection) (block : Span)
    (places : List Span) :
    (rejection.locate block places).unlabelled = rejection.diagnostic.unlabelled := by
  refine List.foldlRecOn (motive := fun located : Diagnostic =>
      located.unlabelled = rejection.diagnostic.unlabelled)
    rejection.marks _ rfl fun diagnostic same mark _ => ?_
  split
  · exact same
  · exact same

/-- Computations in two steps agree up to a change of their errors if both steps do. -/
theorem mapError_bind_congr {Error Other First Second : Type} {change : Error → Other}
    {first second : Except Error First} {rest others : First → Except Error Second}
    (same : first.mapError change = second.mapError change)
    (after : ∀ value, (rest value).mapError change = (others value).mapError change) :
    (first.bind rest).mapError change = (second.bind others).mapError change := by
  cases first with
  | error error =>
    cases second with
    | error other =>
      have sameError : change error = change other := Except.error.inj same
      exact congrArg Except.error sameError
    | ok value => cases same
  | ok value =>
    cases second with
    | error other => cases same
    | ok other =>
      obtain rfl : value = other := Except.ok.inj same
      exact after value

namespace DocParser

/-- The bytes that a block covers do not matter to its record, and neither does the source. -/
theorem recordOf_unplaced (parser : DocParser) (sourcePath : String) (source : List Char)
    (block : Block) (tagged : TaggedText) :
    (parser.recordOf sourcePath source block tagged).mapError Diagnostic.unlabelled =
      (parser.recordOf sourcePath [] block.unplaced tagged).mapError Diagnostic.unlabelled := by
  have sameTags : parser.classifier.classify tagged block.unplaced sourcePath =
      parser.classifier.classify tagged block sourcePath := rfl
  rw [recordOf, recordOf, sameTags]
  cases parser.classifier.classify tagged block sourcePath with
  | ok record => rfl
  | error rejection => simp only [Except.mapError, Rejection.unlabelled_locate]

/-- What a block does after its tags are cut: it is classified, and its name resolved. -/
theorem parseBlock_of_cut? {parser : DocParser} {block : Block} {tagged : TaggedText}
    (cut : parser.search.cut? block.text = some tagged) (sourcePath : String)
    (source : List Char) (history : History) :
    parser.parseBlock sourcePath source history block =
      (parser.recordOf sourcePath source block tagged).bind fun record =>
        match history.resolve record.declaredName with
        | .error error => .error (error.diagnostic.addLabel (Rejection.blockLabel block.span))
        | .ok (path, later) => .ok (some ⟨path, record⟩, later) := by
  rw [parseBlock, cut]
  simp only
  cases parser.recordOf sourcePath source block tagged with
  | error diagnostic => rfl
  | ok record => rfl

theorem parseBlock_unplaced (parser : DocParser) (sourcePath : String) (source : List Char)
    (history : History) (block : Block) :
    (parser.parseBlock sourcePath source history block).mapError Diagnostic.unlabelled =
      (parser.parseBlock sourcePath [] history block.unplaced).mapError
        Diagnostic.unlabelled := by
  cases cut : parser.search.cut? block.text with
  | none => simp only [parseBlock, Block.unplaced, cut]
  | some tagged =>
    have cutUnplaced : parser.search.cut? block.unplaced.text = some tagged := cut
    rw [parseBlock_of_cut? cut, parseBlock_of_cut? cutUnplaced]
    refine mapError_bind_congr (parser.recordOf_unplaced sourcePath source block tagged)
      fun record => ?_
    cases history.resolve record.declaredName with
    | error error => rfl
    | ok resolved => rfl

theorem parseBlocks_cons_eq_bind (parser : DocParser) (sourcePath : String)
    (source : List Char) (history : History) (block : Block) (blocks : List Block) :
    parser.parseBlocks sourcePath source history (block :: blocks) =
      (parser.parseBlock sourcePath source history block).bind fun parsed =>
        (parser.parseBlocks sourcePath source parsed.2 blocks).bind fun elements =>
          .ok (parsed.1.toList ++ elements) := by
  rw [parseBlocks_cons]
  cases parser.parseBlock sourcePath source history block with
  | error diagnostic => rfl
  | ok parsed =>
    cases parser.parseBlocks sourcePath source parsed.2 blocks with
    | error diagnostic => rfl
    | ok elements => rfl

/-- What blocks declare, or why they are refused, does not depend on the bytes they cover. -/
theorem parseBlocks_unplaced (parser : DocParser) (sourcePath : String) (source : List Char)
    (history : History) (blocks : List Block) :
    (parser.parseBlocks sourcePath source history blocks).mapError Diagnostic.unlabelled =
      (parser.parseBlocks sourcePath [] history (blocks.map Block.unplaced)).mapError
        Diagnostic.unlabelled := by
  induction blocks generalizing history with
  | nil => rfl
  | cons block blocks inductionHypothesis =>
    rw [List.map_cons, parseBlocks_cons_eq_bind, parseBlocks_cons_eq_bind]
    refine mapError_bind_congr (parser.parseBlock_unplaced sourcePath source history block)
      fun parsed => ?_
    exact mapError_bind_congr (inductionHypothesis parsed.2) fun elements => rfl

/-- Sources with the same blocks but for the bytes they cover are parsed to the same elements, or
refused for the same reason. -/
theorem parse_of_unplaced {parser : DocParser} {first second : List Char}
    (same : (parser.scanner.scan first).map Block.unplaced =
      (parser.scanner.scan second).map Block.unplaced) (sourcePath : String) :
    (parser.parse sourcePath first).mapError Diagnostic.unlabelled =
      (parser.parse sourcePath second).mapError Diagnostic.unlabelled := by
  rw [parse, parse, parseBlocks_unplaced, same, ← parseBlocks_unplaced]

end DocParser

/-! ### Lines behind an indent -/

/-- Puts a character in front of the first line, which it makes if there is none. -/
def joinFirst (c : Char) : List (List Char) → List (List Char)
  | [] => [[c]]
  | line :: lines => (c :: line) :: lines

theorem splitLines_cons {c : Char} (other : c ≠ '\n') (rest : List Char) :
    splitLines (c :: rest) = joinFirst c (splitLines rest) := by
  rw [splitLines, if_neg (by rwa [beq_iff_eq])]
  cases splitLines rest with
  | nil => rfl
  | cons line lines => rfl

theorem dropFinal_append {front : List Char} {final : Char} (last : front.getLast? ≠ some final)
    (text : List Char) : dropFinal final (front ++ text) = front ++ dropFinal final text := by
  cases text with
  | nil => simp [dropFinal, last]
  | cons c rest =>
    rw [dropFinal, dropFinal, List.getLast?_append_of_ne_nil _ (List.cons_ne_nil c rest)]
    split
    · rw [List.dropLast_append_of_ne_nil (List.cons_ne_nil c rest)]
    · rfl

/-- Text that does not end like a line in front of a line stands in front of its content. -/
theorem lineContent_append_of_getLast? {front : List Char} (noFeed : front.getLast? ≠ some '\n')
    (noReturn : front.getLast? ≠ some '\r') (line : List Char) :
    lineContent (front ++ line) = front ++ lineContent line := by
  rw [lineContent, dropFinal_append noFeed, dropFinal_append noReturn, lineContent]

/-- Text without line ends in front of a line stands in front of its content. -/
theorem lineContent_append {front : List Char} (noFeed : '\n' ∉ front) (noReturn : '\r' ∉ front)
    (line : List Char) : lineContent (front ++ line) = front ++ lineContent line :=
  lineContent_append_of_getLast? (fun ending => noFeed (List.mem_of_getLast? ending))
    (fun ending => noReturn (List.mem_of_getLast? ending)) line

/-- The lines of the second source say what those of the first say, behind an indent. -/
def LinesAlike (indent : List Char) (first second : List Char) : Prop :=
  List.Forall₂ (fun line other => lineContent other = indent ++ lineContent line)
    (splitLines first) (splitLines second)

/-- Two states of scans in step: a block that is open started in the same line and has the same
text, and in the second scan the indent is to be stripped as well. -/
inductive ScanState.Alike (indent : List Char) : ScanState → ScanState → Prop where
  | outside : Alike indent .outside .outside
  | inside (startLine offset otherOffset column : Nat) (text : List Char) :
      Alike indent (.inside startLine offset column text)
        (.inside startLine otherOffset (indent.length + column) text)

namespace Scanner

/-- An indent that a scanner passes over: it is blank, and behind it the searches find what they
find without it. -/
structure Passes (scanner : Scanner) (indent : List Char) : Prop where
  blank : ∀ c ∈ indent, Text.isBlank c = true
  opens : ∀ line, (scanner.opens (indent ++ line)).map Range.stop =
    (scanner.opens line).map fun opening => indent.length + opening.stop
  closes : ∀ line, (scanner.closes (indent ++ line)).map Range.start =
    (scanner.closes line).map fun closing => indent.length + closing.start

/-- Nothing is an indent that every scanner passes over. -/
theorem passes_nil (scanner : Scanner) : scanner.Passes [] where
  blank := List.forall_mem_nil _
  opens := by simp
  closes := by simp

/-- The indent is stripped with the columns, or with the blanks before a line prefix. -/
theorem strip_append {indent : List Char} (blank : ∀ c ∈ indent, Text.isBlank c = true)
    (scanner : Scanner) (column : Nat) (line : List Char) :
    scanner.strip (indent.length + column) (indent ++ line) = scanner.strip column line := by
  rw [strip, strip]
  cases scanner.linePrefix with
  | none =>
    simp only
    rw [List.drop_length_add_append]
  | some chars =>
    have trimmed : Text.trimWith Text.isBlank (indent ++ line) =
        Text.trimWith Text.isBlank line := by
      rw [Text.trimWith, List.dropWhile_append_of_pos blank, Text.trimWith]
    simp only
    rw [trimmed]

/-- One line keeps two scans in step, and they close blocks of the same lines and text. -/
theorem step_alike {scanner : Scanner} {indent : List Char} (passes : scanner.Passes indent)
    {line other : List Char} (content : lineContent other = indent ++ lineContent line)
    {state otherState : ScanState} (alike : state.Alike indent otherState)
    (number offset otherOffset : Nat) :
    (scanner.step number otherOffset otherState other).1.map Block.unplaced =
        (scanner.step number offset state line).1.map Block.unplaced ∧
      (scanner.step number offset state line).2.Alike indent
        (scanner.step number otherOffset otherState other).2 := by
  cases alike with
  | outside =>
    have found := passes.opens (lineContent line)
    simp only [step, content]
    cases opened : scanner.opens (lineContent line) with
    | none =>
      rw [opened, Option.map_none, Option.map_eq_none_iff] at found
      rw [found]
      exact ⟨rfl, .outside⟩
    | some opening =>
      rw [opened, Option.map_some] at found
      obtain ⟨otherOpening, otherOpened, stop⟩ := Option.map_eq_some_iff.mp found
      rw [otherOpened]
      simp only
      -- The rest of the opening line is the same, and so is everything that is made of it.
      rw [stop, List.drop_length_add_append]
      cases scanner.closes ((lineContent line).drop opening.stop) with
      | none => exact ⟨rfl, .inside _ _ _ _ _⟩
      | some closing => exact ⟨rfl, .outside⟩
  | inside startLine startOffset otherStart column text =>
    have found := passes.closes (lineContent line)
    simp only [step, content]
    cases closed : scanner.closes (lineContent line) with
    | none =>
      rw [closed, Option.map_none, Option.map_eq_none_iff] at found
      rw [found]
      simp only
      rw [strip_append passes.blank]
      exact ⟨trivial, .inside _ _ _ _ _⟩
    | some closing =>
      rw [closed, Option.map_some] at found
      obtain ⟨otherClosing, otherClosed, start⟩ := Option.map_eq_some_iff.mp found
      rw [otherClosed]
      simp only
      rw [start, List.take_length_add_append, strip_append passes.blank]
      exact ⟨rfl, .outside⟩

theorem scanLines_alike {scanner : Scanner} {indent : List Char}
    (passes : scanner.Passes indent) {lines others : List (List Char)}
    (contents : List.Forall₂ (fun line other => lineContent other = indent ++ lineContent line)
      lines others)
    {state otherState : ScanState} (alike : state.Alike indent otherState)
    (number offset otherOffset : Nat) :
    (scanner.scanLines number otherOffset otherState others).map Block.unplaced =
      (scanner.scanLines number offset state lines).map Block.unplaced := by
  induction contents generalizing state otherState number offset otherOffset with
  | nil => rfl
  | cons content _ inductionHypothesis =>
    obtain ⟨sameBlock, inStep⟩ := step_alike passes content alike number offset otherOffset
    rw [scanLines_cons, scanLines_cons, List.map_append, List.map_append, ← Option.toList_map,
      ← Option.toList_map, sameBlock, inductionHypothesis inStep]

/-- Alike sources have the same blocks but for the bytes they cover. -/
theorem scan_of_linesAlike {scanner : Scanner} {indent : List Char}
    (passes : scanner.Passes indent) {first second : List Char}
    (alike : LinesAlike indent first second) :
    (scanner.scan second).map Block.unplaced = (scanner.scan first).map Block.unplaced :=
  scanLines_alike passes alike .outside 1 0 0

end Scanner

end DocComments
