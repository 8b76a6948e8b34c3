/-
This file builds documentation from sources.

Sources are taken one after the other. A source that parses adds its elements to the tree, in
order, and counts as a source file if it declared any; a source that fails adds nothing. Either
way it counts as discovered. The finished documentation is written as one table with the tree,
the lists of elements, and the files.
-/

import DocComments.Datum.JsonWriter
import DocComments.Element.List
import DocComments.Failure
import DocComments.Source.Parser

namespace DocComments

/-- What has been gathered from sources. -/
structure Documentation where
  tree : DocTree
  sourceFiles : List String
  discoveredFiles : List String

namespace Documentation

/-- Documentation of nothing. -/
def empty : Documentation :=
  ⟨.empty, [], []⟩

/-- The file names as one field, if they are asked for. -/
def discoveredField (all : Bool) (files : List String) : List (String × Datum) :=
  if all then [("discovered_files", .ofTexts files)] else []

/-- The documentation as data. The discovered files are part of it only if they are asked
for. -/
def toDatum (documentation : Documentation) (table : TagTable) (all : Bool) :
    Except SettingsError Datum :=
  (documentation.tree.lists table).map fun lists =>
    .table ([("elements", documentation.tree.toDatum),
      ("lists", .array (lists.map ElementList.toDatum)),
      ("source_files", .ofTexts documentation.sourceFiles)]
        ++ discoveredField all documentation.discoveredFiles)

/-- The documentation as an indented JSON document. -/
def toJson (documentation : Documentation) (table : TagTable) (all : Bool) :
    Except Failure String :=
  match documentation.toDatum table all with
  | .ok datum => .ok (Json.pretty datum)
  | .error error => .error (.settings error)

end Documentation

/-- Documentation under construction, and the parser that reads further sources. -/
structure DocBuilder where
  parser : DocParser
  documentation : Documentation

namespace DocBuilder

/-- A builder that has seen no source. -/
def ofConfig (config : ParserConfig) (table : TagTable) : Except Failure DocBuilder :=
  match DocParser.ofConfig config table with
  | .ok parser => .ok ⟨parser, .empty⟩
  | .error diagnostic => .error (.config (.parser diagnostic))

/-- The tag types in use. -/
def table (builder : DocBuilder) : TagTable :=
  builder.parser.classifier.table

/-- Takes note of a file. -/
def discover (builder : DocBuilder) (path : String) : DocBuilder :=
  { builder with
    documentation :=
      { builder.documentation with
        discoveredFiles := builder.documentation.discoveredFiles ++ [path] } }

/-- Adds the elements of a source. -/
def addElements (builder : DocBuilder) (path : String) (elements : List ResolvedElement) :
    DocBuilder :=
  if elements.isEmpty then
    builder
  else
    { builder with
      documentation :=
        { builder.documentation with
          tree := builder.documentation.tree.mergeAll
            (elements.map fun element => (element.path, element.record.declaration))
          sourceFiles := builder.documentation.sourceFiles ++ [path] } }

/-- Parses a source and adds what it declares. The builder goes on in any case. -/
def parseSource (builder : DocBuilder) (path : String) (source : List Char) :
    DocBuilder × Except Failure Unit :=
  let builder := builder.discover path
  match builder.parser.parse path source with
  | .ok elements => (builder.addElements path elements, .ok ())
  | .error diagnostic => (builder, .error (.parse [diagnostic] path source))

end DocBuilder

end DocComments
