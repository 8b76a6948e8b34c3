/-
This file proves that it does not matter whether the lines of a source end with a line feed alone
or with a carriage return before it.

Every line is read without its line end, and a carriage return counts as part of the line end
wherever a line feed follows. So if a source has no carriage returns of its own, putting one
before every line feed leaves the content of every line as it was, whether the line opens a
block, continues one, closes one or stands outside, and also if the last line has no end at all.
-/

import DocComments.Proofs.AlikeSources

namespace DocComments

/-- The text with a carriage return before every line feed. -/
def withReturns (text : List Char) : List Char :=
  Text.replace '\n' ['\r', '\n'] text

theorem withReturns_feed (rest : List Char) :
    withReturns ('\n' :: rest) = '\r' :: '\n' :: withReturns rest := rfl

theorem withReturns_cons {c : Char} (other : c ≠ '\n') (rest : List Char) :
    withReturns (c :: rest) = c :: withReturns rest := by
  simp [withReturns, Text.replace, other]

theorem splitLines_returnFeed (rest : List Char) :
    splitLines ('\r' :: '\n' :: rest) = ['\r', '\n'] :: splitLines rest := rfl

/-- The lines keep their contents. The induction reads the source from its end, because a
character joins the line that follows it. -/
theorem linesAlike_withReturns {source : List Char} (noReturn : '\r' ∉ source) :
    LinesAlike [] source (withReturns source) := by
  unfold LinesAlike
  induction source with
  | nil => exact .nil
  | cons c rest inductionHypothesis =>
    obtain ⟨differs, noneLeft⟩ := not_or.mp (mt List.mem_cons.mpr noReturn)
    have contents := inductionHypothesis noneLeft
    by_cases feed : c = '\n'
    · subst feed
      rw [withReturns_feed, splitLines_returnFeed]
      exact .cons rfl contents
    · have noFeed : '\n' ∉ [c] := fun inside => feed (List.mem_singleton.mp inside).symm
      have noReturn : '\r' ∉ [c] := fun inside => differs (List.mem_singleton.mp inside)
      rw [withReturns_cons feed, splitLines_cons feed, splitLines_cons feed]
      generalize splitLines rest = lines at contents ⊢
      generalize splitLines (withReturns rest) = others at contents ⊢
      cases contents with
      | nil => exact .cons rfl .nil
      | @cons line other lines others content later =>
        refine .cons ?_ later
        have own := lineContent_append noFeed noReturn line
        have changed := lineContent_append noFeed noReturn other
        rw [List.singleton_append] at own changed
        rw [own, changed, content, List.nil_append, List.nil_append]

namespace DocParser

/-- A source without carriage returns has the same blocks with a carriage return before every
line feed, block by block of the same lines and with the same text. It is then parsed to the same
elements, or refused with the same code, message and hint. -/
theorem parse_withReturns (parser : DocParser) (sourcePath : String) {source : List Char}
    (noReturn : '\r' ∉ source) :
    (parser.scanner.scan (withReturns source)).map Block.unplaced =
      (parser.scanner.scan source).map Block.unplaced ∧
    (parser.parse sourcePath (withReturns source)).mapError Diagnostic.unlabelled =
      (parser.parse sourcePath source).mapError Diagnostic.unlabelled := by
  have sameBlocks :=
    Scanner.scan_of_linesAlike parser.scanner.passes_nil (linesAlike_withReturns noReturn)
  exact ⟨sameBlocks, parse_of_unplaced sameBlocks sourcePath⟩

/-- A block over several lines with an empty one among them, and a block in a last line without
line end that is refused. -/
theorem parse_withReturns_standard :
    '\r' ∉ "/** Reads.\n\n * @class A\n */\n".toList ∧
    (standard.scanner.scan "/** Reads.\r\n\r\n * @class A\r\n */\r\n".toList).map
        Block.unplaced =
      [⟨1, 4, Span.between 0 0, " Reads.\n\n@class A\n".toList⟩] ∧
    (standard.parse "lib.js" "/** Reads.\r\n\r\n * @class A\r\n */\r\n".toList).mapError
        Diagnostic.unlabelled =
      .ok [⟨"A", ⟨"A", ⟨1, 4, "lib.js", none, "class", "Reads.", .empty⟩⟩⟩] ∧
    (standard.parse "lib.js" "/** @class A */\r\n/** @nope x */".toList).mapError
        Diagnostic.unlabelled =
      .error (.plain .unknownTag "unknown tag `@nope`"
        (some "set `ignore_invalid_tags = true` to drop unknown tags")) := by
  have noReturn : '\r' ∉ "/** Reads.\n\n * @class A\n */\n".toList := by decide
  have alsoNone : '\r' ∉ "/** @class A */\n/** @nope x */".toList := by decide
  obtain ⟨scanned, parsed⟩ := standard.parse_withReturns "lib.js" noReturn
  have refused := (standard.parse_withReturns "lib.js" alsoNone).2
  refine ⟨noReturn, scanned.trans ?_, parsed.trans ?_, refused.trans ?_⟩
  all_goals decide +kernel

end DocParser

end DocComments
