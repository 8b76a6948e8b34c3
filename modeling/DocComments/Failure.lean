/-
This file gathers the ways in which building documentation can fail, and the reports made of
them.

A failure in a source becomes one report per diagnostic, with the source at hand and a label
for every place; a primary label also names the lines it covers. Every other failure becomes
one report without places.
-/

import DocComments.Diagnostic
import DocComments.Text.Pieces
import DocComments.Text.WhiteSpace

namespace DocComments

/-- What can be wrong with a configuration. -/
inductive ConfigFault where
  | parser (diagnostic : Diagnostic)
  | missingFile (path : String)
  | invalidFile (path : String)
  | invalidTagFile (path : String)
  | invalidFilter (setting pattern : String)
deriving DecidableEq, Repr

/-- The message of a fault. -/
def ConfigFault.message : ConfigFault → String
  | .parser diagnostic => s!"Invalid parser configuration: {diagnostic.render}"
  | .missingFile path => s!"Missing configuration file: {path}"
  | .invalidFile path => s!"Invalid configuration in {path}"
  | .invalidTagFile path => s!"Invalid tag settings in {path}"
  | .invalidFilter setting pattern => s!"Invalid `{setting}` pattern `{pattern}`"

/-- Why no documentation was built: a file could not be read or written, the tag types or the
configuration are faulty, or a source is. -/
inductive Failure where
  | inputOutput
  | settings (error : SettingsError)
  | config (fault : ConfigFault)
  | parse (diagnostics : List Diagnostic) (path : String) (source : List Char)
deriving DecidableEq, Repr

/-- The message of a failure. -/
def Failure.message : Failure → String
  | .inputOutput => "I/O error"
  | .settings error => s!"Tag settings error: {error.message}"
  | .config fault => s!"Configuration error: {fault.message}"
  | .parse diagnostics path _ => s!"{path}: {Diagnostic.renderAll diagnostics}"

/-! ### Reports -/

/-- A place in a report, given by its first byte and its length. -/
structure ReportLabel where
  primary : Bool
  offset : Nat
  length : Nat
  text : String
deriving DecidableEq, Repr

/-- A report to be shown. -/
structure Report where
  message : String
  code : Option String
  help : Option String
  hasSource : Bool
  labels : List ReportLabel
deriving DecidableEq, Repr

/-- The lines of a source that a span covers, in words. A span that cuts a character in two
counts as empty, and so does the text before it. -/
def lineRange (source : List Char) (span : Span) : String :=
  let before := match Text.splitAtByte? span.start source with
    | some (before, _) => Text.count '\n' before
    | none => 0
  let inner := match span.slice? source with
    | some body => Text.count '\n' (Text.dropTail (· == '\n') body)
    | none => 0
  if inner == 0 then s!"line {before + 1}" else s!"lines {before + 1}-{before + 1 + inner}"

/-- The label of a report for a label of a diagnostic. -/
def Label.report (source : List Char) (label : Label) : ReportLabel :=
  { primary := label.primary
    offset := label.span.start
    length := label.span.length
    text :=
      if label.primary then s!"{label.message}, {lineRange source label.span}"
      else label.message }

/-- The report of a diagnostic on a source. -/
def Diagnostic.report (path : String) (source : List Char) (diagnostic : Diagnostic) : Report :=
  { message := s!"{path}: {diagnostic.message}"
    code := diagnostic.code.map Code.text
    help := diagnostic.help
    hasSource := true
    labels := diagnostic.labels.map (Label.report source) }

/-- The reports of a failure. -/
def Failure.reports (failure : Failure) : List Report :=
  match failure with
  | .parse diagnostics path source => diagnostics.map (Diagnostic.report path source)
  | .settings error => [⟨failure.message, some error.code.text, error.help, false, []⟩]
  | .inputOutput => [⟨failure.message, some "inkdoc::io", none, false, []⟩]
  | .config _ => [⟨failure.message, some "inkdoc::config", none, false, []⟩]

end DocComments
