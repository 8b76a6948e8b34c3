/-
This file says how comment blocks and tags are recognised.

The delimiters and the tag marker are patterns. Only white space may stand before an opening
delimiter on its line, and the marker must name the tag in a group called `tag`. Patterns are
read once, before any source is looked at, so that a faulty one is reported up front.
-/

import DocComments.Block.Scanner
import DocComments.Block.Segment
import DocComments.Diagnostic
import DocComments.Pattern.Reader

namespace DocComments

/-- The settings of a parser. -/
structure ParserConfig where
  openPattern : String
  closePattern : String
  tagPattern : String
  ignoreInvalidTags : Bool
  linePrefix : Option String
  newlineReplacement : Option String
deriving DecidableEq, Repr

namespace ParserConfig

/-- The settings in use where nothing else is said. -/
def standard : ParserConfig :=
  { openPattern := "/\\*\\*"
    closePattern := "\\*/"
    tagPattern := "@(?P<tag>\\S+)\\s"
    ignoreInvalidTags := false
    linePrefix := none
    newlineReplacement := none }

end ParserConfig

/-- The name of the group that holds the name of a tag. -/
def tagGroup : String :=
  "tag"

/-- The characters of the leftmost match in a line. -/
def Pattern.inLine (pattern : Pattern) (line : List Char) : Option Range :=
  (pattern.find? line).map (·.whole)

/-- The matches in a text, each with the characters of its tag name. -/
def Pattern.markers (pattern : Pattern) : MarkerSearch :=
  fun text => (pattern.findAll text).map fun found =>
    ⟨found.whole, pattern.named? found tagGroup⟩

/-- An opening delimiter that only white space precedes. -/
def anchoredPattern (openPattern : String) : String :=
  "^\\s*?(?:" ++ openPattern ++ ")"

/-- The patterns of a configuration, ready for use. -/
structure Patterns where
  opening : Pattern
  closing : Pattern
  tag : Pattern

namespace Patterns

/-- Reads the pattern of a setting. -/
def readSetting (setting text : String) : Except Diagnostic Pattern :=
  match Pattern.read? text.toList with
  | some pattern => .ok pattern
  | none => .error (.plain .invalidPattern s!"invalid `{setting}`" none)

/-- A tag pattern without the group that holds the name. -/
def missingGroup (tagPattern : String) : Diagnostic :=
  .plain .missingTagGroup s!"tag pattern `{tagPattern}` has no `{tagGroup}` group"
    (some "capture the tag name with `(?P<tag>...)`, as in `@(?P<tag>\\S+)\\s`")

/-- Reads the patterns of a configuration. -/
def ofConfig (config : ParserConfig) : Except Diagnostic Patterns := do
  let opening ← readSetting "open_pattern" (anchoredPattern config.openPattern)
  let closing ← readSetting "close_pattern" config.closePattern
  let tag ← readSetting "tag_pattern" config.tagPattern
  if tag.hasGroup tagGroup then
    return ⟨opening, closing, tag⟩
  else
    throw (missingGroup config.tagPattern)

end Patterns

end DocComments
