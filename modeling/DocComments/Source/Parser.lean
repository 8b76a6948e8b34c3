/-
This file parses the comment blocks of one source.

Blocks are taken in order. A block without tags is passed over; any other must be classified
and its name resolved against the declarations before it in the same source. The first block
that fails decides, and then nothing of the source counts. The history of names starts empty
with every source.
-/

import DocComments.Block.Classification
import DocComments.Element.History
import DocComments.Source.Config

namespace DocComments

/-- A declared element with its absolute path. -/
structure ResolvedElement where
  path : String
  record : ElementRecord
deriving DecidableEq, Repr

/-- A parser: how blocks and tags are found, and how tags are classified. -/
structure DocParser where
  scanner : Scanner
  search : MarkerSearch
  classifier : Classifier

namespace DocParser

/-- The parser of a configuration. -/
def ofConfig (config : ParserConfig) (table : TagTable) : Except Diagnostic DocParser := do
  let patterns ← Patterns.ofConfig config
  let scanner : Scanner :=
    { opens := patterns.opening.inLine
      closes := patterns.closing.inLine
      linePrefix := config.linePrefix.map String.toList }
  let classifier : Classifier :=
    { table := table
      ignoreInvalidTags := config.ignoreInvalidTags
      style := ⟨config.newlineReplacement.map String.toList⟩ }
  return ⟨scanner, patterns.tag.markers, classifier⟩

/-- The places of the tags of a block in the source, if there are as many markers in the source
as the block has tags. -/
def places (parser : DocParser) (source : List Char) (block : Block) (tagged : TaggedText) :
    List Span :=
  let spans := parser.search.spans source block.span
  if spans.length == tagged.segments.length then spans else []

/-- The record of a block with tags, and its place in the source if it is refused. -/
def recordOf (parser : DocParser) (sourcePath : String) (source : List Char) (block : Block)
    (tagged : TaggedText) : Except Diagnostic ElementRecord :=
  match parser.classifier.classify tagged block sourcePath with
  | .ok record => .ok record
  | .error rejection =>
    .error (rejection.locate block.span (parser.places source block tagged))

/-- The elements of the blocks from here on, with the declarations made before. -/
def parseBlocks (parser : DocParser) (sourcePath : String) (source : List Char) :
    History → List Block → Except Diagnostic (List ResolvedElement)
  | _, [] => .ok []
  | history, block :: blocks =>
    match parser.search.cut? block.text with
    | none => parseBlocks parser sourcePath source history blocks
    | some tagged =>
      match parser.recordOf sourcePath source block tagged with
      | .error diagnostic => .error diagnostic
      | .ok record =>
        match history.resolve record.declaredName with
        | .error error =>
          .error (error.diagnostic.addLabel (Rejection.blockLabel block.span))
        | .ok (path, history) =>
          (parseBlocks parser sourcePath source history blocks).map fun elements =>
            ⟨path, record⟩ :: elements

/-- The elements that a source declares, in order. -/
def parse (parser : DocParser) (sourcePath : String) (source : List Char) :
    Except Diagnostic (List ResolvedElement) :=
  parser.parseBlocks sourcePath source .empty (parser.scanner.scan source)

end DocParser

end DocComments
