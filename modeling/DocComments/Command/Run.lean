/-
This file runs the whole program on stored files.

A run reads the configuration, finds the source files, reads the tag types, parses the files
into one tree, and writes the export. The first failure ends it, except that a run told to keep
going passes over files that cannot be read or parsed. Nothing is written before everything
else succeeded. The result shows what was remarked on the way, how the run ended, and the files
as they are afterwards.
-/

import DocComments.Command.Arguments
import DocComments.Documentation
import DocComments.Files.Discovery
import DocComments.TagType.Builtin
import DocComments.TagType.Data

namespace DocComments

/-! ### Configuration -/

/-- The path of the configuration in the working directory. -/
def localConfigPath : String :=
  "inkdoc/config.toml"

/-- The path of the configuration in the directory for configurations of the platform. -/
def systemConfigPath (configDirectory : String) : String :=
  joinPath (joinPath configDirectory "inkdoc") "config.toml"

/-- The configuration file to read: the one that was named, or else the first that exists in
the usual places. -/
def configPath? (system : FileSystem) (configDirectory named : Option String) : Option String :=
  match named with
  | some path => some path
  | none =>
    if system.isFile localConfigPath then
      some localConfigPath
    else
      match configDirectory.map systemConfigPath with
      | some path => if system.isFile path then some path else none
      | none => none

/-- Reads the configuration of a run. -/
def loadConfig (system : FileSystem) (configDirectory named : Option String) :
    Except Failure AppConfig :=
  match configPath? system configDirectory named with
  | none => .ok .standard
  | some path =>
    match system.get? path with
    | none => .error (.config (.missingFile path))
    | some _ =>
      match system.readText? path with
      | none => .error .inputOutput
      | some text =>
        match AppConfig.ofToml? text.toList with
        | some config => .ok config
        | none => .error (.config (.invalidFile path))

/-! ### Tag types -/

/-- The extension of a file name: what follows its last dot, if anything precedes the dot. -/
def extension? (path : String) : Option (List Char) :=
  let name := ((Text.splitOn '/' path.toList).getLast?).getD []
  match name.reverse.dropWhile (· != '.') with
  | _ :: _ :: _ => some (name.reverse.takeWhile (· != '.')).reverse
  | _ => none

/-- Whether the path names a JSON file; case does not matter. -/
def isJsonPath (path : String) : Bool :=
  (extension? path).any fun letters => letters.map Char.toLower == ['j', 's', 'o', 'n']

/-- Reads tag types from a text of the file at this path. -/
def readTagTypes (path : String) (text : List Char) : Except Failure (Entries String TagType) :=
  match if isJsonPath path then TagTable.typesOfJson? text else TagTable.typesOfToml? text with
  | some types => .ok types
  | none => .error (.config (.invalidTagFile path))

/-- Reads the tag types from the file at a path. -/
def loadTagTable (system : FileSystem) (path : String) : Except Failure TagTable :=
  match system.readText? path with
  | none => .error .inputOutput
  | some text => do
    let types ← readTagTypes path text.toList
    match TagTable.build types with
    | .ok table => .ok table
    | .error error => .error (.settings error)

/-- The builder for a configuration. -/
def builderOf (system : FileSystem) (config : AppConfig) : Except Failure DocBuilder := do
  let table ← match config.tagsPath with
    | some path => loadTagTable system path
    | none => pure .builtin
  DocBuilder.ofConfig config.parser table

/-! ### Runs -/

/-- What a run remarks on. -/
inductive Event where
  | noSourceFiles
  | skippedFile (path : String)
deriving DecidableEq, Repr

/-- The end of a run. -/
structure Outcome where
  events : List Event
  result : Except Failure Unit
  system : FileSystem

/-- Parses a stored file. -/
def parseFile (system : FileSystem) (builder : DocBuilder) (path : String) :
    DocBuilder × Except Failure Unit :=
  match system.readText? path with
  | none => (builder, .error .inputOutput)
  | some text => builder.parseSource path text.toList

/-- Parses stored files one after the other. Told to keep going, it passes over files that
fail and remarks on each of them. -/
def parseFiles (system : FileSystem) (keepGoing : Bool) :
    DocBuilder → List String → List Event × Except Failure DocBuilder
  | builder, [] => ([], .ok builder)
  | builder, path :: paths =>
    match parseFile system builder path with
    | (builder, .ok ()) => parseFiles system keepGoing builder paths
    | (builder, .error failure) =>
      if keepGoing then
        let (events, result) := parseFiles system keepGoing builder paths
        (.skippedFile path :: events, result)
      else
        ([], .error failure)

/-- The inputs of a run: those of its arguments, or else those of the configuration. -/
def inputsOf (arguments : Arguments) (config : AppConfig) : List String :=
  if arguments.inputs.isEmpty then config.discovery.inputs else arguments.inputs

/-- The configuration of a run and the files it looks at. -/
def prepare (system : FileSystem) (configDirectory : Option String) (arguments : Arguments) :
    Except Failure (AppConfig × List String) := do
  let config ← loadConfig system configDirectory arguments.config
  let filter ← FileFilter.ofConfig config.discovery
  let files ← filter.discover system (inputsOf arguments config)
  return (config, files)

/-- Writes the export of a finished builder. -/
def writeExport (system : FileSystem) (arguments : Arguments) (config : AppConfig)
    (builder : DocBuilder) : Except Failure FileSystem := do
  let text ← builder.documentation.toJson builder.table config.discovery.allSourceFiles
  match system.write? arguments.output text with
  | some system => .ok system
  | none => .error .inputOutput

/-- Runs the program. -/
def run (system : FileSystem) (configDirectory : Option String) (arguments : Arguments) :
    Outcome :=
  match prepare system configDirectory arguments with
  | .error failure => ⟨[], .error failure, system⟩
  | .ok (config, files) =>
    let found := if files.isEmpty then [Event.noSourceFiles] else []
    match builderOf system config with
    | .error failure => ⟨found, .error failure, system⟩
    | .ok builder =>
      let (skipped, result) := parseFiles system arguments.keepGoing builder files
      match result with
      | .error failure => ⟨found ++ skipped, .error failure, system⟩
      | .ok builder =>
        match writeExport system arguments config builder with
        | .error failure => ⟨found ++ skipped, .error failure, system⟩
        | .ok written => ⟨found ++ skipped, .ok (), written⟩

/-! ### The program -/

/-- What the program shows for itself: its exit code, a notice, and the run, if there was
one. -/
structure Conclusion where
  exitCode : Nat
  notice : Option String
  outcome : Option Outcome

/-- The program on these arguments. Faulty arguments exit with two, a failed run with one. -/
def conclude (system : FileSystem) (configDirectory : Option String) (arguments : List String) :
    Conclusion :=
  match Arguments.read arguments with
  | .error fault => ⟨if fault.isInformation then 0 else 2, none, none⟩
  | .ok arguments =>
    let outcome := run system configDirectory arguments
    let exitCode := match outcome.result with
      | .ok () => 0
      | .error _ => 1
    ⟨exitCode, logLevelNotice? arguments.logLevel, some outcome⟩

end DocComments
