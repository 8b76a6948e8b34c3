/-
This file gives diagnostics: what is wrong, and where in the source.

A diagnostic has a message and may have a code, a hint, and labelled places in the source. A
primary label marks the place of the problem, a secondary one adds to it. Codes name the cause
of an error for good, whatever its message says.
-/

import DocComments.TagType.Basic
import DocComments.Text.Bytes

namespace DocComments

/-- The causes of errors. -/
inductive Code where
  | invalidPattern
  | missingTagGroup
  | missingElementTag
  | duplicateElementTag
  | missingElementName
  | unknownTag
  | malformedValue
  | invalidElementPath
  | noParentElement
  | missingProperty
  | unknownParent
  | duplicateAlias
  | cyclicParent
  | unknownType
deriving DecidableEq, Repr

namespace Code

/-- Every code. -/
def all : List Code :=
  [.invalidPattern, .missingTagGroup, .missingElementTag, .duplicateElementTag,
   .missingElementName, .unknownTag, .malformedValue, .invalidElementPath, .noParentElement,
   .missingProperty, .unknownParent, .duplicateAlias, .cyclicParent, .unknownType]

/-- The written code: configuration errors are numbered from 0, those of blocks from 100, of
paths from 200, of tag types from 300. -/
def text : Code → String
  | .invalidPattern => "E001"
  | .missingTagGroup => "E002"
  | .missingElementTag => "E100"
  | .duplicateElementTag => "E101"
  | .missingElementName => "E102"
  | .unknownTag => "E103"
  | .malformedValue => "E104"
  | .invalidElementPath => "E200"
  | .noParentElement => "E201"
  | .missingProperty => "E300"
  | .unknownParent => "E301"
  | .duplicateAlias => "E302"
  | .cyclicParent => "E303"
  | .unknownType => "E304"

/-- The code that is written so. -/
def ofText? (text : String) : Option Code :=
  all.find? fun code => code.text == text

/-- What the code means. -/
def description : Code → String
  | .invalidPattern => "invalid pattern"
  | .missingTagGroup => "tag pattern has no `tag` group"
  | .missingElementTag => "missing element tag"
  | .duplicateElementTag => "duplicate element tag"
  | .missingElementName => "missing element name"
  | .unknownTag => "unknown tag"
  | .malformedValue => "malformed tag value"
  | .invalidElementPath => "invalid element path"
  | .noParentElement => "no parent element"
  | .missingProperty => "missing settings property"
  | .unknownParent => "unknown parent type"
  | .duplicateAlias => "duplicate alias"
  | .cyclicParent => "cyclic parent chain"
  | .unknownType => "unknown tag type"

end Code

/-- A place in the source with a remark on it. -/
structure Label where
  span : Span
  message : String
  primary : Bool
deriving DecidableEq, Repr

/-- Something that is wrong. -/
structure Diagnostic where
  code : Option Code
  message : String
  labels : List Label
  help : Option String
deriving DecidableEq, Repr

namespace Diagnostic

/-- A diagnostic without any labels. -/
def plain (code : Code) (message : String) (help : Option String) : Diagnostic :=
  ⟨some code, message, [], help⟩

/-- Adds a label after the others. -/
def addLabel (diagnostic : Diagnostic) (label : Label) : Diagnostic :=
  { diagnostic with labels := diagnostic.labels ++ [label] }

/-- The diagnostic on one line. -/
def render (diagnostic : Diagnostic) : String :=
  match diagnostic.code with
  | some code => s!"error[{code.text}]: {diagnostic.message}"
  | none => s!"error: {diagnostic.message}"

/-- Several diagnostics on one line: the first, and how many more there are. -/
def renderAll : List Diagnostic → String
  | [] => ""
  | [diagnostic] => diagnostic.render
  | diagnostic :: others => s!"{diagnostic.render} (+{others.length} more)"

end Diagnostic

namespace SettingsError

/-- The code of an error in a table of tag types. -/
def code : SettingsError → Code
  | .missingProperty _ _ => .missingProperty
  | .unknownParent _ _ => .unknownParent
  | .duplicateAlias _ _ _ => .duplicateAlias
  | .cyclicParent _ => .cyclicParent
  | .unknownType _ => .unknownType

/-- How to mend an error in a table of tag types. -/
def help : SettingsError → Option String
  | .missingProperty _ _ => some "define the property on the root tag type"
  | .unknownParent _ _ => some "declare the parent type or remove `parent_type`"
  | _ => none

end SettingsError

end DocComments
