/-
This file gives the configuration of a run and reads it from data.

A configuration has three sections: how sources are parsed, which file the tag types come from,
and which files are looked at. Every setting has a value that applies when it is left out, and
unknown settings are refused.
-/

import DocComments.Datum.TomlReader
import DocComments.Source.Config

namespace DocComments

/-- Which files are looked at: inputs, patterns that select and drop files and directories by
name, and whether every file looked at is to be named in the export. -/
structure DiscoveryConfig where
  inputs : List String
  filePattern : String
  ignoreFilePattern : Option String
  ignoreDirPatterns : List String
  allSourceFiles : Bool
deriving DecidableEq, Repr

namespace DiscoveryConfig

/-- The settings in use where nothing else is said. -/
def standard : DiscoveryConfig :=
  { inputs := ["."]
    filePattern := ".*\\.js$"
    ignoreFilePattern := none
    ignoreDirPatterns := []
    allSourceFiles := false }

end DiscoveryConfig

/-- The configuration of a run. -/
structure AppConfig where
  parser : ParserConfig
  tagsPath : Option String
  discovery : DiscoveryConfig
deriving DecidableEq, Repr

namespace AppConfig

/-- The configuration in use where nothing else is said. -/
def standard : AppConfig :=
  ⟨.standard, none, .standard⟩

end AppConfig

/-! ### Reading -/

/-- The settings of a parser in their order. -/
def ParserConfig.fieldNames : List String :=
  ["open_pattern", "close_pattern", "tag_pattern", "ignore_invalid_tags", "line_prefix",
   "newline_replacement"]

/-- Reads the section on parsing. -/
def ParserConfig.ofDatum? (datum : Datum) : Option ParserConfig := do
  let fields ← datum.toRecord? ParserConfig.fieldNames 0
  guard (onlyFields fields ParserConfig.fieldNames)
  let openPattern ←
    readField? fields ["open_pattern"] ParserConfig.standard.openPattern Datum.toText?
  let closePattern ←
    readField? fields ["close_pattern"] ParserConfig.standard.closePattern Datum.toText?
  let tagPattern ←
    readField? fields ["tag_pattern"] ParserConfig.standard.tagPattern Datum.toText?
  let ignoreInvalidTags ← readField? fields ["ignore_invalid_tags"] false Datum.toBool?
  let linePrefix ← readField? fields ["line_prefix"] none (Datum.orNull? Datum.toText?)
  let newlineReplacement ←
    readField? fields ["newline_replacement"] none (Datum.orNull? Datum.toText?)
  return ⟨openPattern, closePattern, tagPattern, ignoreInvalidTags, linePrefix,
    newlineReplacement⟩

/-- Reads the section on tag types: the path of a settings file, if there is one. -/
def AppConfig.tagsPathOfDatum? (datum : Datum) : Option (Option String) := do
  let fields ← datum.toRecord? ["path"] 0
  guard (onlyFields fields ["path"])
  readField? fields ["path"] none (Datum.orNull? Datum.toText?)

/-- The settings of the search for files in their order. -/
def DiscoveryConfig.fieldNames : List String :=
  ["inputs", "file_pattern", "ignore_file_pattern", "ignore_dir_patterns", "all_source_files"]

/-- Reads the section on files. -/
def DiscoveryConfig.ofDatum? (datum : Datum) : Option DiscoveryConfig := do
  let fields ← datum.toRecord? DiscoveryConfig.fieldNames 0
  guard (onlyFields fields DiscoveryConfig.fieldNames)
  let inputs ←
    readField? fields ["inputs"] DiscoveryConfig.standard.inputs (Datum.toList? Datum.toText?)
  let filePattern ←
    readField? fields ["file_pattern"] DiscoveryConfig.standard.filePattern Datum.toText?
  let ignoreFilePattern ←
    readField? fields ["ignore_file_pattern"] none (Datum.orNull? Datum.toText?)
  let ignoreDirPatterns ←
    readField? fields ["ignore_dir_patterns"] [] (Datum.toList? Datum.toText?)
  let allSourceFiles ← readField? fields ["all_source_files"] false Datum.toBool?
  return ⟨inputs, filePattern, ignoreFilePattern, ignoreDirPatterns, allSourceFiles⟩

/-- Reads a configuration. -/
def AppConfig.ofDatum? (datum : Datum) : Option AppConfig := do
  let fields ← datum.toFields?
  guard (onlyFields fields ["parser", "tags", "discovery"])
  let parser ← readField? fields ["parser"] .standard ParserConfig.ofDatum?
  let tagsPath ← readField? fields ["tags"] none AppConfig.tagsPathOfDatum?
  let discovery ← readField? fields ["discovery"] .standard DiscoveryConfig.ofDatum?
  return ⟨parser, tagsPath, discovery⟩

/-- Reads a configuration from TOML. -/
def AppConfig.ofToml? (text : List Char) : Option AppConfig :=
  (Toml.read? text).bind AppConfig.ofDatum?

end DocComments
