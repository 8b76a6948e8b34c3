/-
This file reads the values of property tags.

A property tag sets an attribute of the element or adds to one. Authors, versions and licences
are free text. A default is one word and null without one; an access level must be a word.
Types must stand in braces. A parameter is a name with an optional default or dots, an optional
type and a description; a return value is a type and a description, and null without a type; an
example is a title with an optional language, code in braces and a description. A value that
does not fit is refused, and then the usage of the tag says what was expected.
-/

import DocComments.Attribute.Basic
import DocComments.TagValue.Braces
import DocComments.TagValue.TypeText
import DocComments.Text.Number

namespace DocComments

/-- The property tags. -/
inductive PropertyTag where
  | author
  | version
  | license
  | default
  | access
  | valtype
  | inherits
  | param
  | returns
  | codeExample
  | privateAccess
  | staticAccess
deriving DecidableEq, Repr

namespace PropertyTag

/-- Every property tag. -/
def all : List PropertyTag :=
  [.author, .version, .license, .default, .access, .valtype, .inherits, .param, .returns,
   .codeExample, .privateAccess, .staticAccess]

/-- The name as blocks write it. -/
def name : PropertyTag → String
  | .author => "author"
  | .version => "version"
  | .license => "license"
  | .default => "default"
  | .access => "access"
  | .valtype => "valtype"
  | .inherits => "inherits"
  | .param => "param"
  | .returns => "return"
  | .codeExample => "example"
  | .privateAccess => "private"
  | .staticAccess => "static"

/-- The tag of a name. -/
def ofName? (name : String) : Option PropertyTag :=
  all.find? fun tag => tag.name == name

/-- How the tag is to be used. -/
def usage : PropertyTag → String
  | .author => "@author name"
  | .version => "@version text"
  | .license => "@license text"
  | .default => "@default value"
  | .access => "@access level"
  | .valtype => "@valtype \x7btype\x7d"
  | .inherits => "@inherits \x7btype\x7d"
  | .param => "@param name[=default|...] [\x7btype\x7d] [- description]"
  | .returns => "@return \x7btype\x7d [- description]"
  | .codeExample => "@example title [#lang] \x7bcode\x7d description"
  | .privateAccess => "@private"
  | .staticAccess => "@static"

end PropertyTag

/-- What a property tag does to the attributes of its element. -/
inductive AttributeChange where
  | set (key : AttributeKey) (value : AttributeValue)
  | addParam (param : Param)
  | addExample (sample : Example)
deriving DecidableEq, Repr

/-- The attributes after a change. -/
def AttributeChange.apply (attributes : Attributes) : AttributeChange → Attributes
  | .set key value => attributes.set key value
  | .addParam param => attributes.pushParam param
  | .addExample sample => attributes.pushExample sample

/-- How free text is written down: what takes the place of line feeds, if anything does. -/
structure TextStyle where
  newlineReplacement : Option (List Char)
deriving DecidableEq, Repr

namespace TextStyle

/-- Trims a text and replaces its line feeds. -/
def render (style : TextStyle) (text : List Char) : String :=
  match style.newlineReplacement with
  | some replacement => String.ofList (Text.replace '\n' replacement (Text.trim text))
  | none => String.ofList (Text.trim text)

end TextStyle

namespace TagValue

/-- Skips what may stand between the parts of a value. -/
def skipSeparators (text : List Char) : List Char :=
  text.dropWhile Text.isSeparator

/-- The characters up to the next white space, after separators. -/
def token (value : List Char) : List Char :=
  (skipSeparators value).takeWhile fun c => !Text.isWhiteSpace c

/-- Whether a part of a value can end here: at the end, or before a separator. -/
def atBreak : List Char → Bool
  | [] => true
  | c :: _ => Text.isSeparator c

/-- A type in braces that stands alone at the head of a value. -/
def typeAnnotation? (value : List Char) : Option (List Char) := do
  let (body, rest) ← braced? (skipSeparators value)
  if atBreak rest then some body else none

/-- A description, which a hyphen may introduce. -/
def descriptionAfter (text : List Char) : List Char :=
  match skipSeparators text with
  | '-' :: rest => rest
  | rest => rest

/-! ### Parameters -/

/-- Whether the character can belong to the name of a parameter. -/
def isNameCharacter (c : Char) : Bool :=
  Text.isAlphanumeric c || c == '_'

/-- What may follow the name of a parameter: dots for any number of arguments, or a default. -/
inductive ParamSuffix where
  | sequenced
  | default (value : List Char)
deriving DecidableEq, Repr

/-- Whether a text ends in three dots. -/
def endsInDots (text : List Char) : Bool :=
  ['.', '.', '.'].isSuffixOf text

/-- The characters of a default: up to white space or an opening brace. -/
def isDefaultCharacter (c : Char) : Bool :=
  !(Text.isWhiteSpace c || c == '{')

/-- Reads what follows the name of a parameter. A default is not empty and does not end in
dots; without a suffix nothing is taken away. -/
def readSuffix (text : List Char) : Option ParamSuffix × List Char :=
  match text with
  | '.' :: '.' :: '.' :: rest => (some .sequenced, rest)
  | '=' :: rest =>
    let value := rest.takeWhile isDefaultCharacter
    if value.isEmpty || endsInDots value then
      (none, text)
    else
      (some (.default value), rest.dropWhile isDefaultCharacter)
  | _ => (none, text)

/-- A type in braces, if there is one, and what follows it. -/
def optionalType (text : List Char) : Option (List Char) × List Char :=
  match braced? text with
  | some (body, rest) => (some body, rest)
  | none => (none, text)

/-- Reads a parameter. -/
def param? (style : TextStyle) (value : List Char) : Option Param :=
  let text := skipSeparators value
  let name := text.takeWhile isNameCharacter
  let (suffix, rest) := readSuffix (text.dropWhile isNameCharacter)
  if name.isEmpty || !(atBreak rest || rest.head? == some '{') then
    none
  else
    let (type, rest) := optionalType (skipSeparators rest)
    some
      { name := String.ofList name
        default := match suffix with
          | some (.default value) => some (String.ofList value)
          | _ => none
        sequenced := suffix == some .sequenced
        type := type.map typeRef
        description := style.render (descriptionAfter rest) }

/-! ### Return values -/

/-- Reads a return value. -/
def returnValue? (style : TextStyle) (value : List Char) : Option ReturnValue := do
  let (body, rest) ← braced? (skipSeparators value)
  let description := style.render (descriptionAfter rest)
  return ⟨some (typeRef body), if description.isEmpty then none else some description⟩

/-! ### Examples -/

/-- Splits a heading into a title and a language: a last word that is a number sign and
something more names the language. -/
def splitLanguage (heading : List Char) : List Char × Option (List Char) :=
  let heading := Text.trim heading
  let (title, last) := match Text.splitLastSpace? heading with
    | some (title, last) => (Text.dropTail Text.isWhiteSpace title, last)
    | none => ([], heading)
  match last with
  | '#' :: c :: language => (title, some (c :: language))
  | _ => (heading, none)

/-- Code without line breaks before it and white space after it. -/
def trimCode (code : List Char) : List Char :=
  Text.dropTail Text.isWhiteSpace (code.dropWhile fun c => c == '\r' || c == '\n')

/-- Reads an example, which must have a title. -/
def example? (style : TextStyle) (value : List Char) : Option Example := do
  let heading := value.takeWhile (· != '{')
  let (code, rest) ← braced? (value.dropWhile (· != '{'))
  let (title, language) := splitLanguage heading
  if title.isEmpty then
    none
  else
    some
      { title := String.ofList title
        language := language.map String.ofList
        code := String.ofList (trimCode code)
        description := style.render rest }

/-! ### Properties -/

/-- The change that a property tag with this value makes. The result is `none` for a value that
the tag does not take. -/
def change? (tag : PropertyTag) (style : TextStyle) (value : List Char) :
    Option AttributeChange :=
  match tag with
  | .author => some (.set .author (.text (style.render value)))
  | .version => some (.set .version (.text (style.render value)))
  | .license => some (.set .license (.text (style.render value)))
  | .default =>
    let word := token value
    some (.set .default (if word.isEmpty then .null else .text (String.ofList word)))
  | .access =>
    let word := token value
    if word.isEmpty then none else some (.set .access (.text (String.ofList word)))
  | .valtype => (typeAnnotation? value).map fun body => .set .valtype (.type (typeRef body))
  | .inherits => (typeAnnotation? value).map fun body => .set .inherits (.type (typeRef body))
  | .param => (param? style value).map .addParam
  | .returns => some (.set .returns (.ofReturn? (returnValue? style value)))
  | .codeExample => (example? style value).map .addExample
  | .privateAccess => some (.set .access (.text "private"))
  | .staticAccess => some (.set .access (.text "static"))

end TagValue

end DocComments
