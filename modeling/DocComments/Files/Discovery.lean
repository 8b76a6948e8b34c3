/-
This file finds the source files below a list of inputs.

An input that is a file is taken as it is. An input that is a directory stands for the files
below it whose names match the file pattern and not the pattern of files to ignore, except for
those in directories whose names match a pattern of directories to ignore; the input itself is
exempt from that. The entries of a directory are visited in the byte order of their names, so
the order in which the system lists them does not matter.
-/

import DocComments.Command.Config
import DocComments.Failure
import DocComments.Files.Tree

namespace DocComments

/-- Which files are kept and which directories are passed over, by name. -/
structure FileFilter where
  keepsFile : List Char → Bool
  skipsDirectory : List Char → Bool

namespace FileFilter

/-- Reads the pattern of a setting. -/
def readSetting (setting text : String) : Except Failure Pattern :=
  match Pattern.read? text.toList with
  | some pattern => .ok pattern
  | none => .error (.config (.invalidFilter setting text))

/-- The filter of a configuration. -/
def ofConfig (config : DiscoveryConfig) : Except Failure FileFilter := do
  let filePattern ← readSetting "file_pattern" config.filePattern
  let ignoreFile ← config.ignoreFilePattern.mapM (readSetting "ignore_file_pattern")
  let ignoreDirs ← config.ignoreDirPatterns.mapM (readSetting "ignore_dir_patterns")
  return { keepsFile := fun name =>
             filePattern.occursIn name && !ignoreFile.any fun pattern => pattern.occursIn name
           skipsDirectory := fun name =>
             ignoreDirs.any fun pattern => pattern.occursIn name }

/-- Whether an entry may be visited before another one. -/
def entryNotAfter (first second : String × List String) : Bool :=
  Text.notAfter first.1.toList second.1.toList

mutual

/-- The kept files below a node that is found at `path`. -/
def filesBelow (filter : FileFilter) (path : String) : FileNode → List String
  | .file _ => []
  | .directory entries =>
    ((filesOfEntries filter path entries).mergeSort entryNotAfter).flatMap (·.2)

/-- The kept files that each entry of a directory contributes. -/
def filesOfEntries (filter : FileFilter) (path : String) :
    List (String × FileNode) → List (String × List String)
  | [] => []
  | (name, .file _) :: entries =>
    (name, if filter.keepsFile name.toList then [joinPath path name] else [])
      :: filesOfEntries filter path entries
  | (name, .directory inner) :: entries =>
    (name, if filter.skipsDirectory name.toList then []
      else filesBelow filter (joinPath path name) (.directory inner))
      :: filesOfEntries filter path entries

end

/-- The files that an input stands for. -/
def filesOfInput (filter : FileFilter) (system : FileSystem) (input : String) :
    Except Failure (List String) :=
  match system.get? input with
  | none => .error .inputOutput
  | some (.file _) => .ok [input]
  | some (.directory entries) => .ok (filter.filesBelow input (.directory entries))

/-- The files that the inputs stand for, in order. Every input must exist. -/
def discover (filter : FileFilter) (system : FileSystem) (inputs : List String) :
    Except Failure (List String) :=
  (inputs.mapM (filter.filesOfInput system)).map List.flatten

end FileFilter

end DocComments
