/-
This file is the command line program.

The run itself works on stored files as a value. This file gathers from the disk the files that
a run can look at, lets the run go over them, says on the error stream what there is to say,
and writes the export. Nothing is decided here: which files count, what is parsed and how the
program ends is settled by the run.
-/

import DocComments.Command.Run

namespace DocComments

/-! ### Gathering files -/

/-- The kind of what the disk has at a path, links followed. -/
def kindAt (path : String) : IO (Option IO.FS.FileType) := do
  let place := (← IO.currentDir) / path
  try
    return some (← place.metadata).type
  catch _ =>
    return none

/-- The bytes of a file. For a file that cannot be read this is a byte that is no text. -/
def bytesAt (path : String) : IO ByteArray := do
  try
    IO.FS.readBinFile path
  catch _ =>
    return ByteArray.mk #[0xFF]

/-- The path on disk of the place that the names lead to. -/
def diskPath (place : List String) : String :=
  "/" ++ "/".intercalate place

/-- The system with a directory at a place, unless there is something already. -/
def FileSystem.addDirectory (system : FileSystem) (place : List String) : FileSystem :=
  if (system.top.descend? place).isSome then system
  else { system with top := FileNode.insert (.directory []) place system.top }

/-- The system with a file at a place. -/
def FileSystem.addFile (system : FileSystem) (place : List String) (bytes : ByteArray) :
    FileSystem :=
  { system with top := FileNode.insert (.file bytes) place system.top }

/-- The system without files, in the working directory. -/
def bareSystem : IO FileSystem := do
  let directory := toString (← IO.currentDir)
  let place := ((Text.splitOn '/' directory.toList).map String.ofList).filter (· != "")
  return (FileSystem.mk (.directory []) place).addDirectory place

/-- The places that the parts of a path lead through, where a place is written from its end. -/
def placesAlong : List String → List String → List (List String)
  | _, [] => []
  | place, part :: parts =>
    let next :=
      if part == "" || part == "." then place
      else if part == ".." then place.tail
      else part :: place
    next :: placesAlong next parts

/-- Adds what the disk has at a place: a file with its bytes, a directory without entries. -/
def gatherPlace (system : FileSystem) (place : List String) : IO FileSystem := do
  match ← kindAt (diskPath place) with
  | some .dir => return system.addDirectory place
  | some _ => return system.addFile place (← bytesAt (diskPath place))
  | none => return system

/-- Adds what the disk has at a path and on the way to it. -/
def gatherPath (system : FileSystem) (path : String) : IO FileSystem := do
  let (start, parts) := system.startOf path
  (placesAlong start parts).foldlM (fun system place => gatherPlace system place.reverse) system

/-- Adds the files below a directory that the filter lets through. Links are passed over. -/
partial def gatherBelow (filter : FileFilter) (system : FileSystem) (place : List String) :
    IO FileSystem := do
  let directory := (← IO.currentDir) / diskPath place
  (← directory.readDir).foldlM (fun system entry => do
    let name := entry.fileName
    match (← entry.path.symlinkMetadata).type with
    | .file =>
      if filter.keepsFile name.toList then
        return system.addFile (place ++ [name]) (← bytesAt (diskPath (place ++ [name])))
      else
        return system
    | .dir =>
      if filter.skipsDirectory name.toList then
        return system
      else
        gatherBelow filter (system.addDirectory (place ++ [name])) (place ++ [name])
    | _ => return system) system

/-- Adds what an input stands for. -/
def gatherInput (filter : FileFilter) (system : FileSystem) (input : String) :
    IO FileSystem := do
  let system ← gatherPath system input
  match system.locate? input, ← kindAt input with
  | some place, some .dir => gatherBelow filter system place
  | _, _ => return system

/-- The directory for configurations of the platform. -/
def platformConfigDirectory : IO (Option String) := do
  match ← IO.getEnv "XDG_CONFIG_HOME" with
  | some directory =>
    if directory.startsWith "/" then
      return some directory
  | none => pure ()
  return (← IO.getEnv "HOME").map fun home => joinPath home ".config"

/-- The files that a run with these arguments can look at. -/
def gather (configDirectory : Option String) (arguments : Arguments) : IO FileSystem := do
  let configPaths := [arguments.config, some localConfigPath,
    configDirectory.map systemConfigPath].filterMap id
  let system ← configPaths.foldlM gatherPath (← bareSystem)
  match loadConfig system configDirectory arguments.config with
  | .error _ => return system
  | .ok config =>
    let system ← (arguments.output :: config.tagsPath.toList).foldlM gatherPath system
    match FileFilter.ofConfig config.discovery with
    | .error _ => return system
    | .ok filter => (inputsOf arguments config).foldlM (gatherInput filter) system

/-! ### Messages -/

/-- The text that explains the arguments. -/
def helpText : String :=
  "\n".intercalate
    ["Usage: inkdoc [OPTIONS] [INPUTS]...",
     "",
     "Arguments:",
     "  [INPUTS]...  Files or directories to scan [default: configured inputs]",
     "",
     "Options:",
     "  -o, --output <OUTPUT>        Path to the output JSON file [default: docs.json]",
     "  -c, --config <CONFIG>        Path to configuration file (TOML)",
     "      --log-level <LOG_LEVEL>  Log level (off, error, warn, info, debug, trace)",
     "      --keep-going             Skip files that fail to parse instead of stopping",
     "  -h, --help                   Print help",
     "  -V, --version                Print version"]

/-- What is said of arguments that start no run. -/
def UsageFault.text : UsageFault → String
  | .helpAsked => helpText
  | .versionAsked => "inkdoc 0.1.0"
  | .unknownArgument => "error: unexpected argument"
  | .missingValue => "error: an option needs a value"
  | .givenTwice => "error: an option was given more than once"
  | .unneededValue => "error: a flag takes no value"

/-- What is said of an event. -/
def Event.text : Event → String
  | .noSourceFiles => "warning: no source files found"
  | .skippedFile path => s!"error: skipping file {path}"

/-- A report on a line of its own, and its hint on another. -/
def Report.text (report : Report) : String :=
  let head := match report.code with
    | some code => s!"error[{code}]: {report.message}"
    | none => s!"error: {report.message}"
  match report.help with
  | some help => s!"{head}\n  help: {help}"
  | none => head

/-- Whether anything is to be said at this log level. -/
def isSilent (logLevel : String) : Bool :=
  logLevel.toList.map Char.toLower == ['o', 'f', 'f']

/-- Says what a run remarked on and how it failed. -/
def sayOutcome (arguments : Arguments) (outcome : Outcome) : IO Unit := do
  if !isSilent arguments.logLevel then
    outcome.events.forM fun event => IO.eprintln event.text
    match outcome.result with
    | .ok () => pure ()
    | .error failure => failure.reports.forM fun report => IO.eprintln report.text

/-- Writes the export of a run that succeeded. -/
def storeExport (arguments : Arguments) (outcome : Outcome) : IO Unit := do
  match outcome.result, outcome.system.readText? arguments.output with
  | .ok (), some text => IO.FS.writeFile arguments.output text
  | _, _ => pure ()

/-- The whole program. -/
def program (arguments : List String) : IO UInt32 := do
  match Arguments.read arguments with
  | .error fault =>
    if fault.isInformation then IO.println fault.text else IO.eprintln fault.text
    return if fault.isInformation then 0 else 2
  | .ok parsed =>
    let configDirectory ← platformConfigDirectory
    let system ← gather configDirectory parsed
    let conclusion := conclude system configDirectory arguments
    conclusion.notice.forM fun notice => IO.eprintln notice
    conclusion.outcome.forM fun outcome => do
      sayOutcome parsed outcome
      storeExport parsed outcome
    return conclusion.exitCode.toUInt32

end DocComments

/-- Runs the program; a failure to write ends it like a failed run. -/
def main (arguments : List String) : IO UInt32 := do
  try
    DocComments.program arguments
  catch failure =>
    IO.eprintln s!"error[inkdoc::io]: {failure}"
    return 1
