/-
This file proves what a builder has gathered after any run of sources, some of which fail.

The parser of a builder never changes, and a source is parsed without regard to those before it,
so whether a source succeeds and what it declares can be said without the run. A source adds to
the tree what it declares, to the source files its path if it declares anything, and to the
discovered files its path in any case; a source that fails declares nothing. The run is the sum
of these steps, so the failing sources may be left out of it.
-/

import DocComments.Documentation
import DocComments.Proofs.Parsing

namespace DocComments

theorem DocTree.mergeAll_append (tree : DocTree) (first second : List (String × Declaration)) :
    tree.mergeAll (first ++ second) = (tree.mergeAll first).mergeAll second := by
  rw [mergeAll, List.foldl_append]
  rfl

/-! ### One source -/

namespace DocParser

/-- The declarations of a source in the order of its elements; a source that fails has none. -/
def declared (parser : DocParser) (file : String × List Char) : List (String × Declaration) :=
  match parser.parse file.1 file.2 with
  | .ok elements => elements.map fun element => (element.path, element.record.declaration)
  | .error _ => []

/-- Whether a source declares anything. -/
def declaresAny (parser : DocParser) (file : String × List Char) : Bool :=
  !(parser.declared file).isEmpty

end DocParser

namespace DocBuilder

/-- Whether a source succeeds. -/
def succeeds (builder : DocBuilder) (file : String × List Char) : Bool :=
  match (builder.parseSource file.1 file.2).2 with
  | .ok () => true
  | .error _ => false

/-- What a source does to a builder. -/
theorem parseSource_eq (builder : DocBuilder) (file : String × List Char) :
    (builder.parseSource file.1 file.2).1 =
      { parser := builder.parser
        documentation :=
          { tree := builder.documentation.tree.mergeAll (builder.parser.declared file)
            sourceFiles := builder.documentation.sourceFiles ++
              if builder.parser.declaresAny file then [file.1] else []
            discoveredFiles := builder.documentation.discoveredFiles ++ [file.1] } } := by
  cases parsed : builder.parser.parse file.1 file.2 with
  | error diagnostic =>
    simp [parseSource, discover, DocParser.declaresAny, DocParser.declared, parsed,
      DocTree.mergeAll]
  | ok elements =>
    cases elements with
    | nil =>
      simp [parseSource, discover, addElements, DocParser.declaresAny, DocParser.declared, parsed,
        DocTree.mergeAll]
    | cons =>
      simp [parseSource, discover, addElements, DocParser.declaresAny, DocParser.declared, parsed]

/-- A source succeeds exactly if it is parsed. -/
theorem succeeds_iff {builder : DocBuilder} {file : String × List Char} :
    builder.succeeds file = true ↔
      ∃ elements, builder.parser.parse file.1 file.2 = .ok elements := by
  cases parsed : builder.parser.parse file.1 file.2 with
  | error diagnostic => simp [succeeds, parseSource, discover, parsed]
  | ok elements => simp [succeeds, parseSource, discover, parsed]

theorem declared_of_not_succeeds {builder : DocBuilder} {file : String × List Char}
    (failed : ¬ builder.succeeds file = true) : builder.parser.declared file = [] := by
  rw [DocParser.declared]
  cases parsed : builder.parser.parse file.1 file.2 with
  | error diagnostic => rfl
  | ok elements => exact absurd (succeeds_iff.mpr ⟨elements, parsed⟩) failed

/-! ### Runs of sources -/

/-- The builder after sources, one after the other, whether they succeed or fail. -/
def parseSources (builder : DocBuilder) (files : List (String × List Char)) : DocBuilder :=
  files.foldl (fun builder file => (builder.parseSource file.1 file.2).1) builder

theorem parseSources_concat (builder : DocBuilder) (files : List (String × List Char))
    (file : String × List Char) :
    builder.parseSources (files ++ [file]) =
      ((builder.parseSources files).parseSource file.1 file.2).1 := by
  rw [parseSources, List.foldl_append]
  rfl

/-- What a run does to a builder. -/
theorem parseSources_eq (builder : DocBuilder) (files : List (String × List Char)) :
    builder.parseSources files =
      { parser := builder.parser
        documentation :=
          { tree := builder.documentation.tree.mergeAll (files.flatMap builder.parser.declared)
            sourceFiles := builder.documentation.sourceFiles ++
              (files.filter builder.parser.declaresAny).map Prod.fst
            discoveredFiles :=
              builder.documentation.discoveredFiles ++ files.map Prod.fst } } := by
  induction files generalizing builder with
  | nil => simp [parseSources, DocTree.mergeAll]
  | cons file files inductionHypothesis =>
    have step : builder.parseSources (file :: files) =
        (builder.parseSource file.1 file.2).1.parseSources files := rfl
    rw [step, inductionHypothesis, parseSource_eq, List.flatMap_cons, DocTree.mergeAll_append,
      List.filter_cons]
    split
    · simp
    · simp

/-- Failing sources contribute no declarations to a run. -/
theorem flatMap_declared_filter_succeeds (builder : DocBuilder)
    (files : List (String × List Char)) :
    (files.filter builder.succeeds).flatMap builder.parser.declared =
      files.flatMap builder.parser.declared := by
  induction files with
  | nil => rfl
  | cons file files inductionHypothesis =>
    rw [List.filter_cons, List.flatMap_cons]
    by_cases success : builder.succeeds file = true
    · rw [if_pos success, List.flatMap_cons, inductionHypothesis]
    · rw [if_neg success, inductionHypothesis, declared_of_not_succeeds success, List.nil_append]

theorem filter_declaresAny_filter_succeeds (builder : DocBuilder)
    (files : List (String × List Char)) :
    (files.filter builder.succeeds).filter builder.parser.declaresAny =
      files.filter builder.parser.declaresAny := by
  rw [List.filter_filter]
  refine List.filter_congr fun file _ => ?_
  by_cases success : builder.succeeds file = true
  · rw [success, Bool.and_true]
  · rw [DocParser.declaresAny, declared_of_not_succeeds success]
    rfl

/-- A configuration is accepted if its parser is, and then nothing has been gathered yet. -/
theorem ofConfig_eq_ok_iff {config : ParserConfig} {table : TagTable} {builder : DocBuilder} :
    ofConfig config table = .ok builder ↔
      ∃ parser, DocParser.ofConfig config table = .ok parser ∧ builder = ⟨parser, .empty⟩ := by
  unfold ofConfig
  cases DocParser.ofConfig config table with
  | error diagnostic => exact iff_of_false nofun nofun
  | ok parser => simp only [Except.ok.injEq, exists_eq_left', eq_comm]

/-- A source that fails changes neither the tree nor the source files. -/
theorem parseSource_of_error {builder : DocBuilder} {file : String × List Char}
    {failure : Failure} (failed : (builder.parseSource file.1 file.2).2 = .error failure) :
    (builder.parseSource file.1 file.2).1.documentation.tree = builder.documentation.tree ∧
      (builder.parseSource file.1 file.2).1.documentation.sourceFiles =
        builder.documentation.sourceFiles := by
  have noSuccess : ¬ builder.succeeds file = true := by
    rw [succeeds, failed]
    exact Bool.false_ne_true
  rw [parseSource_eq, DocParser.declaresAny, declared_of_not_succeeds noSuccess]
  exact ⟨rfl, List.append_nil _⟩

/-- After any run of a new builder the tree is made of the declarations of exactly the sources
that succeeded, in order; the source files are the paths of those among them that declared
anything, and the discovered files the paths of all. Whether a source succeeds does not depend
on the run before it. One that fails changes neither the tree nor the source files, and neither
does leaving out all that fail. -/
theorem parseSources_gathers_successes {config : ParserConfig} {table : TagTable}
    {builder : DocBuilder} (accepted : ofConfig config table = .ok builder)
    (files : List (String × List Char)) :
    (builder.parseSources files).documentation.tree =
      DocTree.empty.mergeAll
        ((files.filter builder.succeeds).flatMap builder.parser.declared) ∧
    (builder.parseSources files).documentation.sourceFiles =
      ((files.filter builder.succeeds).filter builder.parser.declaresAny).map Prod.fst ∧
    (builder.parseSources files).documentation.discoveredFiles = files.map Prod.fst ∧
    (∀ before file,
      ((builder.parseSources before).succeeds file = true ↔ builder.succeeds file = true) ∧
      (builder.succeeds file = true ↔
        ∃ elements, builder.parser.parse file.1 file.2 = .ok elements)) ∧
    (∀ before file failure,
      ((builder.parseSources before).parseSource file.1 file.2).2 = .error failure →
      (builder.parseSources (before ++ [file])).documentation.tree =
        (builder.parseSources before).documentation.tree ∧
      (builder.parseSources (before ++ [file])).documentation.sourceFiles =
        (builder.parseSources before).documentation.sourceFiles) ∧
    (builder.parseSources (files.filter builder.succeeds)).documentation.tree =
      (builder.parseSources files).documentation.tree ∧
    (builder.parseSources (files.filter builder.succeeds)).documentation.sourceFiles =
      (builder.parseSources files).documentation.sourceFiles := by
  obtain ⟨parser, -, rfl⟩ := ofConfig_eq_ok_iff.mp accepted
  refine ⟨?_, ?_, ?_, fun before file => ⟨?_, succeeds_iff⟩, ?_, ?_, ?_⟩
  · rw [parseSources_eq, flatMap_declared_filter_succeeds]
    rfl
  · rw [parseSources_eq, filter_declaresAny_filter_succeeds]
    exact List.nil_append _
  · rw [parseSources_eq]
    exact List.nil_append _
  · rw [succeeds_iff, succeeds_iff, parseSources_eq]
  · intro before file failure failed
    rw [parseSources_concat]
    exact parseSource_of_error failed
  · rw [parseSources_eq, parseSources_eq, flatMap_declared_filter_succeeds]
  · rw [parseSources_eq, parseSources_eq, filter_declaresAny_filter_succeeds]

/-- A run with a source that fails after a valid block, and with one that declares nothing. -/
theorem parseSources_gathers_successes_standard :
    ofConfig .standard .builtin = .ok ⟨.standard, .empty⟩ ∧
    ∃ documentation,
      (parseSources ⟨.standard, .empty⟩
        [("a.js", "/** @class A */\n".toList),
          ("b.js", "/** @class B */\n/** @nope x */\n".toList),
          ("c.js", "let c;\n".toList),
          ("d.js", "/** @class A */\n/** @method .run */\n".toList)]).documentation =
        documentation ∧
      documentation.tree = DocTree.empty.mergeAll
        [("A", ⟨1, 1, "a.js", none, "class", "", .empty⟩),
          ("A", ⟨1, 1, "d.js", none, "class", "", .empty⟩),
          ("A.run", ⟨2, 2, "d.js", none, "method", "", .empty⟩)] ∧
      documentation.sourceFiles = ["a.js", "d.js"] ∧
      documentation.discoveredFiles = ["a.js", "b.js", "c.js", "d.js"] := by
  have accepted : ofConfig .standard .builtin = .ok ⟨.standard, .empty⟩ :=
    ofConfig_eq_ok_iff.mpr ⟨_, DocParser.ofConfig_standard, rfl⟩
  have gathered := parseSources_gathers_successes accepted
  refine ⟨accepted, _, rfl, ?_, ?_, ?_⟩
  · exact (gathered _).1.trans (congrArg _ (by decide +kernel))
  · exact (gathered _).2.1.trans (by decide +kernel)
  · exact (gathered _).2.2.1

end DocBuilder

end DocComments
