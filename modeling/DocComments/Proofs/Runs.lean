/-
This file proves what a run of the program leaves behind, with files among its inputs that cannot be
read or parsed.

A run is a chain of steps of which only the last one writes, so a run that fails has changed
nothing. Told to keep going, a run gathers from its files what a builder gathers from the texts of
those that can be read. Of these, the ones that cannot be parsed add neither elements nor source
files. So the export is that of the remaining files alone, as long as it is not to name the files
that were discovered.
-/

import DocComments.Command.Run
import DocComments.Proofs.ElementLists
import DocComments.Proofs.Gathering
import DocComments.Proofs.StoredFiles

namespace DocComments

/-! ### The steps of a run -/

/-- The files after a run, or the failure that ends it. -/
def written (system : FileSystem) (configDirectory : Option String) (arguments : Arguments) :
    Except Failure FileSystem := do
  let (config, files) ← prepare system configDirectory arguments
  let builder ← builderOf system config
  let builder ← (parseFiles system arguments.keepGoing builder files).2
  writeExport system arguments config builder

variable {system : FileSystem} {configDirectory : Option String} {arguments : Arguments}

/-- A run ends as its chain of steps does, and a failure leaves the files as they were. -/
theorem exists_run_eq (system : FileSystem) (configDirectory : Option String)
    (arguments : Arguments) :
    ∃ events, run system configDirectory arguments =
      match written system configDirectory arguments with
      | .ok after => ⟨events, .ok (), after⟩
      | .error failure => ⟨events, .error failure, system⟩ := by
  unfold run written
  cases prepare system configDirectory arguments with
  | error failure => exact ⟨_, rfl⟩
  | ok prepared =>
    obtain ⟨config, files⟩ := prepared
    simp only [bind, Except.bind]
    cases builderOf system config with
    | error failure => exact ⟨_, rfl⟩
    | ok builder =>
      simp only
      cases parseFiles system arguments.keepGoing builder files with
      | mk skipped result =>
        cases result with
        | error failure => exact ⟨_, rfl⟩
        | ok builder =>
          simp only
          cases writeExport system arguments config builder with
          | error failure => exact ⟨_, rfl⟩
          | ok after => exact ⟨_, rfl⟩

theorem result_run_eq_ok_iff :
    (run system configDirectory arguments).result = .ok () ↔
      written system configDirectory arguments =
        .ok (run system configDirectory arguments).system := by
  obtain ⟨events, ran⟩ := exists_run_eq system configDirectory arguments
  rw [ran]
  cases written system configDirectory arguments with
  | error failure => exact iff_of_false nofun nofun
  | ok after => exact iff_of_true rfl rfl

/-- A run that fails leaves all files as they were. -/
theorem system_run_of_error {failure : Failure}
    (failed : (run system configDirectory arguments).result = .error failure) :
    (run system configDirectory arguments).system = system := by
  obtain ⟨events, ran⟩ := exists_run_eq system configDirectory arguments
  rw [ran] at failed ⊢
  cases done : written system configDirectory arguments with
  | error failure => rfl
  | ok after =>
    rw [done] at failed
    cases failed

/-- What a run went through if it succeeded. -/
theorem exists_steps_of_run (succeeded : (run system configDirectory arguments).result = .ok ()) :
    ∃ config files fresh builder,
      prepare system configDirectory arguments = .ok (config, files) ∧
      builderOf system config = .ok fresh ∧
      (parseFiles system arguments.keepGoing fresh files).2 = .ok builder ∧
      writeExport system arguments config builder =
        .ok (run system configDirectory arguments).system := by
  obtain ⟨⟨config, files⟩, prepared, rest⟩ :=
    exists_ok_of_bind (result_run_eq_ok_iff.mp succeeded)
  obtain ⟨fresh, built, rest⟩ := exists_ok_of_bind rest
  obtain ⟨builder, gathered, exported⟩ := exists_ok_of_bind rest
  exact ⟨config, files, fresh, builder, prepared, built, gathered, exported⟩

/-- An export is the text of the documentation, written to the output. -/
theorem exists_text_of_writeExport {config : AppConfig} {builder : DocBuilder} {after : FileSystem}
    (exported : writeExport system arguments config builder = .ok after) :
    ∃ text, builder.documentation.toJson builder.table config.discovery.allSourceFiles = .ok text ∧
      system.write? arguments.output text = some after := by
  obtain ⟨text, made, rest⟩ := exists_ok_of_bind exported
  refine ⟨text, made, ?_⟩
  cases stored : system.write? arguments.output text with
  | none =>
    rw [stored] at rest
    cases rest
  | some own =>
    rw [stored] at rest
    cases rest
    rfl

/-! ### Files and their texts -/

/-- The file with its text, if it can be read. -/
def sourceOf? (system : FileSystem) (path : String) : Option (String × List Char) :=
  (system.readText? path).map fun text => (path, text.toList)

/-- Those of the files that can be read, with their texts. -/
def sourcesOf (system : FileSystem) (files : List String) : List (String × List Char) :=
  files.flatMap fun path => (sourceOf? system path).toList

/-- Whether a file can be read and parsed. -/
def usable (system : FileSystem) (parser : DocParser) (path : String) : Bool :=
  match system.readText? path with
  | some text => (parser.parse path text.toList).isOk
  | none => false

theorem sourcesOf_cons (system : FileSystem) (path : String) (files : List String) :
    sourcesOf system (path :: files) =
      (sourceOf? system path).toList ++ sourcesOf system files :=
  List.flatMap_cons

theorem map_fst_sourcesOf (system : FileSystem) (files : List String) :
    (sourcesOf system files).map Prod.fst =
      files.filter fun path => (system.readText? path).isSome := by
  induction files with
  | nil => rfl
  | cons path files inductionHypothesis =>
    rw [sourcesOf_cons, List.map_append, inductionHypothesis, List.filter_cons, sourceOf?]
    cases system.readText? path with
    | none => rfl
    | some text => rfl

/-- A file that can be read is usable if its text succeeds. -/
theorem usable_of_readText? {path text : String} (read : system.readText? path = some text)
    (builder : DocBuilder) :
    usable system builder.parser path = builder.succeeds (path, text.toList) := by
  rw [usable, read, Bool.eq_iff_iff, DocBuilder.succeeds_iff]
  simp only
  cases builder.parser.parse path text.toList with
  | error diagnostic => exact iff_of_false nofun nofun
  | ok elements => exact iff_of_true rfl ⟨elements, rfl⟩

/-- The texts of usable files are the texts that succeed. -/
theorem sourcesOf_filter_usable (system : FileSystem) (builder : DocBuilder)
    (files : List String) :
    sourcesOf system (files.filter (usable system builder.parser)) =
      (sourcesOf system files).filter builder.succeeds := by
  induction files with
  | nil => rfl
  | cons path files inductionHypothesis =>
    rw [sourcesOf_cons, List.filter_append, ← inductionHypothesis, List.filter_cons, sourceOf?]
    cases read : system.readText? path with
    | none =>
      rw [usable, read]
      rfl
    | some text =>
      rw [usable_of_readText? read, Option.map_some, Option.toList_some, List.filter_singleton]
      cases builder.succeeds (path, text.toList) with
      | false => rfl
      | true =>
        rw [if_pos rfl, sourcesOf_cons, sourceOf?, read]
        rfl

theorem DocBuilder.parseSources_append (builder : DocBuilder)
    (first second : List (String × List Char)) :
    builder.parseSources (first ++ second) =
      (builder.parseSources first).parseSources second := by
  rw [parseSources, List.foldl_append]
  rfl

theorem DocBuilder.parser_parseSources (builder : DocBuilder)
    (files : List (String × List Char)) :
    (builder.parseSources files).parser = builder.parser := by
  rw [parseSources_eq]

/-! ### Parsing files in turn -/

/-- A file changes a builder as its text does, if it has one. -/
theorem parseFile_fst (system : FileSystem) (builder : DocBuilder) (path : String) :
    (parseFile system builder path).1 = builder.parseSources (sourceOf? system path).toList := by
  rw [parseFile, sourceOf?]
  cases system.readText? path with
  | none => rfl
  | some text => rfl

theorem parseFile_snd_eq_ok_iff (system : FileSystem) (builder : DocBuilder) (path : String) :
    (parseFile system builder path).2 = .ok () ↔ usable system builder.parser path = true := by
  cases read : system.readText? path with
  | none => simp [parseFile, usable, read]
  | some text =>
    rw [usable_of_readText? read, DocBuilder.succeeds, parseFile, read]
    cases (builder.parseSource path text.toList).2 with
    | error failure => simp
    | ok => simp

/-- What a file does in a run of files: it hands its builder on, unless it fails where failures are
not passed over. -/
theorem parseFiles_cons_snd (system : FileSystem) (keepGoing : Bool) (builder : DocBuilder)
    (path : String) (files : List String) :
    (parseFiles system keepGoing builder (path :: files)).2 =
      match keepGoing, (parseFile system builder path).2 with
      | false, .error failure => .error failure
      | _, _ => (parseFiles system keepGoing
          (builder.parseSources (sourceOf? system path).toList) files).2 := by
  rw [parseFiles, ← parseFile_fst]
  cases parseFile system builder path with
  | mk next result =>
    cases result with
    | ok => cases keepGoing <;> rfl
    | error failure => cases keepGoing <;> rfl

/-- Files that are usable, or passed over if they are not, have the effect of their texts. -/
theorem parseFiles_of_passed {keepGoing : Bool} {builder : DocBuilder} {files : List String}
    (passed : keepGoing = true ∨ ∀ path ∈ files, usable system builder.parser path = true) :
    (parseFiles system keepGoing builder files).2 =
      .ok (builder.parseSources (sourcesOf system files)) := by
  induction files generalizing builder with
  | nil => rfl
  | cons path files inductionHypothesis =>
    have remaining : keepGoing = true ∨ ∀ other ∈ files, usable system
        (builder.parseSources (sourceOf? system path).toList).parser other = true := by
      rw [DocBuilder.parser_parseSources]
      exact passed.imp_right fun each other member => each other (List.mem_cons_of_mem _ member)
    rw [parseFiles_cons_snd, inductionHypothesis remaining, ← DocBuilder.parseSources_append,
      ← sourcesOf_cons]
    rcases passed with rfl | each
    · rfl
    · rw [(parseFile_snd_eq_ok_iff system builder path).mpr (each path List.mem_cons_self)]
      cases keepGoing <;> rfl

/-- Where failures are not passed over, all files of a run that succeeds are usable. -/
theorem usable_of_parseFiles {builder later : DocBuilder} {files : List String}
    (parsed : (parseFiles system false builder files).2 = .ok later) :
    ∀ path ∈ files, usable system builder.parser path = true := by
  induction files generalizing builder with
  | nil => exact nofun
  | cons path files inductionHypothesis =>
    rw [parseFiles_cons_snd] at parsed
    cases success : (parseFile system builder path).2 with
    | error failure =>
      rw [success] at parsed
      cases parsed
    | ok =>
      rw [success] at parsed
      have rest := inductionHypothesis parsed
      rw [DocBuilder.parser_parseSources] at rest
      exact List.forall_mem_cons.mpr
        ⟨(parseFile_snd_eq_ok_iff system builder path).mp success, rest⟩

/-! ### Inputs that are files -/

/-- Inputs that are files are discovered as they are. -/
theorem FileFilter.discover_of_isFile (filter : FileFilter) {inputs : List String}
    (files : ∀ input ∈ inputs, system.isFile input = true) :
    filter.discover system inputs = .ok inputs := by
  have each : inputs.mapM (filter.filesOfInput system) = .ok (inputs.map fun input => [input]) := by
    induction inputs with
    | nil => rfl
    | cons input inputs inductionHypothesis =>
      obtain ⟨isFile, others⟩ := List.forall_mem_cons.mp files
      have own : filter.filesOfInput system input = .ok [input] := by
        rw [FileSystem.isFile] at isFile
        rw [filesOfInput]
        split at isFile
        · rename_i bytes found
          rw [found]
        · cases isFile
      rw [List.mapM_cons, own, inductionHypothesis others]
      rfl
  rw [discover, each]
  exact congrArg Except.ok (List.flatMap_singleton' inputs)

/-- With files for its inputs, a run looks at these. -/
theorem prepare_of_isFile (nonempty : arguments.inputs ≠ [])
    (files : ∀ input ∈ arguments.inputs, system.isFile input = true) :
    prepare system configDirectory arguments = do
      let config ← loadConfig system configDirectory arguments.config
      let _ ← FileFilter.ofConfig config.discovery
      return (config, arguments.inputs) := by
  have inputs (config : AppConfig) : inputsOf arguments config = arguments.inputs :=
    if_neg fun empty => nonempty (List.isEmpty_iff.mp empty)
  rw [prepare]
  simp only [inputs, FileFilter.discover_of_isFile _ files]
  rfl

/-- With files for its inputs that are usable or passed over, a run exports what their texts give,
unless a pattern for discovering files is faulty. -/
theorem written_of_passed (arguments : Arguments) {config : AppConfig} {fresh : DocBuilder}
    (loaded : loadConfig system configDirectory arguments.config = .ok config)
    (built : builderOf system config = .ok fresh) (nonempty : arguments.inputs ≠ [])
    (files : ∀ input ∈ arguments.inputs, system.isFile input = true)
    (passed : arguments.keepGoing = true ∨
      ∀ path ∈ arguments.inputs, usable system fresh.parser path = true) :
    written system configDirectory arguments =
      FileFilter.ofConfig config.discovery >>= fun _ => writeExport system arguments config
        (fresh.parseSources (sourcesOf system arguments.inputs)) := by
  rw [written, prepare_of_isFile nonempty files, loaded]
  simp only [bind, Except.bind]
  cases FileFilter.ofConfig config.discovery with
  | error failure => rfl
  | ok filter =>
    simp only [pure, Except.pure, built, parseFiles_of_passed passed]

/-! ### Exports -/

/-- An export that does not name the discovered files does not depend on them. -/
theorem writeExport_congr {config : AppConfig} {first second : DocBuilder} {others : Arguments}
    (unlisted : config.discovery.allSourceFiles = false) (output : arguments.output = others.output)
    (parser : first.parser = second.parser)
    (tree : first.documentation.tree = second.documentation.tree)
    (sourceFiles : first.documentation.sourceFiles = second.documentation.sourceFiles) :
    writeExport system arguments config first = writeExport system others config second := by
  have datum : first.documentation.toDatum first.table false =
      second.documentation.toDatum second.table false := by
    simp only [Documentation.toDatum, DocBuilder.table, parser, tree, sourceFiles,
      Documentation.discoveredField, Bool.false_eq_true, if_false]
  rw [writeExport, writeExport, unlisted, output, Documentation.toJson, Documentation.toJson, datum]

/-- Those of the inputs that the configured run can read and parse. There are none if there is no
parser to do it. -/
def usableInputs (system : FileSystem) (configDirectory : Option String) (arguments : Arguments) :
    List String :=
  match loadConfig system configDirectory arguments.config >>= builderOf system with
  | .ok builder => arguments.inputs.filter (usable system builder.parser)
  | .error _ => []

theorem exists_builder_of_usableInputs
    (nonempty : usableInputs system configDirectory arguments ≠ []) :
    ∃ config fresh, loadConfig system configDirectory arguments.config = .ok config ∧
      builderOf system config = .ok fresh ∧
      usableInputs system configDirectory arguments =
        arguments.inputs.filter (usable system fresh.parser) := by
  unfold usableInputs at nonempty ⊢
  cases made : loadConfig system configDirectory arguments.config >>= builderOf system with
  | error failure =>
    rw [made] at nonempty
    exact absurd rfl nonempty
  | ok fresh =>
    obtain ⟨config, loaded, built⟩ := exists_ok_of_bind made
    exact ⟨config, fresh, loaded, built, rfl⟩

/-- Passing over files that fail, and leaving them out, ends in the same way. -/
theorem written_keepGoing (files : ∀ input ∈ arguments.inputs, system.isFile input = true)
    (unlisted : ∀ config, loadConfig system configDirectory arguments.config = .ok config →
      config.discovery.allSourceFiles = false)
    (nonempty : usableInputs system configDirectory arguments ≠ []) :
    written system configDirectory { arguments with keepGoing := true } =
      written system configDirectory
        { arguments with
          inputs := usableInputs system configDirectory arguments, keepGoing := false } := by
  obtain ⟨config, fresh, loaded, built, inputs⟩ := exists_builder_of_usableInputs nonempty
  rw [inputs] at nonempty ⊢
  have someInput : arguments.inputs ≠ [] := by
    rintro none
    rw [none] at nonempty
    exact nonempty rfl
  rw [written_of_passed { arguments with keepGoing := true } loaded built someInput files
      (.inl rfl),
    written_of_passed { arguments with inputs := _, keepGoing := false } loaded built nonempty
      (fun input member => files input (List.mem_of_mem_filter member))
      (.inr fun path member => List.of_mem_filter member)]
  refine congrArg _ (funext fun _ => writeExport_congr (unlisted config loaded) rfl ?_ ?_ ?_)
  · rw [DocBuilder.parser_parseSources, DocBuilder.parser_parseSources]
  · simp only [sourcesOf_filter_usable, DocBuilder.parseSources_eq,
      DocBuilder.flatMap_declared_filter_succeeds]
  · simp only [sourcesOf_filter_usable, DocBuilder.parseSources_eq,
      DocBuilder.filter_declaresAny_filter_succeeds]

theorem run_eq_of_written_eq {others : Arguments}
    (same : written system configDirectory arguments = written system configDirectory others) :
    (run system configDirectory arguments).result = (run system configDirectory others).result ∧
      (run system configDirectory arguments).system =
        (run system configDirectory others).system := by
  obtain ⟨events, ran⟩ := exists_run_eq system configDirectory arguments
  obtain ⟨otherEvents, otherRan⟩ := exists_run_eq system configDirectory others
  rw [ran, otherRan, same]
  cases written system configDirectory others with
  | error failure => exact ⟨rfl, rfl⟩
  | ok after => exact ⟨rfl, rfl⟩

/-- A run that succeeds has written a text to its output, and the text stands there. -/
theorem exists_text_of_run (succeeded : (run system configDirectory arguments).result = .ok ()) :
    ∃ text,
      system.write? arguments.output text = some (run system configDirectory arguments).system ∧
      (run system configDirectory arguments).system.get? arguments.output =
        some (.file text.toUTF8) := by
  obtain ⟨config, files, fresh, builder, -, -, -, exported⟩ := exists_steps_of_run succeeded
  obtain ⟨text, -, stored⟩ := exists_text_of_writeExport exported
  exact ⟨text, stored, FileSystem.get?_of_write? stored⟩

/-- What a run leaves behind. Let the inputs be files, let the discovered files not be asked for,
and let some of the files be usable. Then a run that keeps going ends as the run on the usable files
alone does, with the same result and the same files; if they succeed, both have written the same
text to the output, where it stands. Whatever the inputs are, a run that fails leaves all files as
they were. -/
theorem run_exports_usable (system : FileSystem) (configDirectory : Option String)
    (arguments : Arguments) :
    ((∀ input ∈ arguments.inputs, system.isFile input = true) →
      (∀ config, loadConfig system configDirectory arguments.config = .ok config →
        config.discovery.allSourceFiles = false) →
      usableInputs system configDirectory arguments ≠ [] →
      ∃ all only,
        run system configDirectory { arguments with keepGoing := true } = all ∧
        run system configDirectory
          { arguments with
            inputs := usableInputs system configDirectory arguments, keepGoing := false } = only ∧
        all.result = only.result ∧ all.system = only.system ∧
        (all.result = .ok () → ∃ text,
          system.write? arguments.output text = some all.system ∧
          all.system.get? arguments.output = some (.file text.toUTF8) ∧
          system.write? arguments.output text = some only.system ∧
          only.system.get? arguments.output = some (.file text.toUTF8))) ∧
    ∀ failure, (run system configDirectory arguments).result = .error failure →
      (run system configDirectory arguments).system = system := by
  refine ⟨fun files unlisted nonempty => ?_, fun failure => system_run_of_error⟩
  obtain ⟨result, systems⟩ := run_eq_of_written_eq (written_keepGoing files unlisted nonempty)
  refine ⟨_, _, rfl, rfl, result, systems, fun succeeded => ?_⟩
  obtain ⟨text, stored, stands⟩ := exists_text_of_run succeeded
  rw [← systems]
  exact ⟨text, stored, stands, stored, stands⟩

/-- Settings, a source, a source that is refused, and a file that is not text. -/
def mixedFiles (settings : String) : FileSystem :=
  ⟨.directory
    [("inkdoc", .directory [("config.toml", .file settings.toUTF8)]),
      ("a.js", .file "/** @class A */\n".toUTF8),
      ("b.js", .file "/** @nope x */\n".toUTF8),
      ("c.js", .file ⟨#[0xFF]⟩)], []⟩

/-- One of three files is usable, and the run on all three ends as the run on this one does. -/
theorem run_exports_usable_mixedFiles :
    usableInputs (mixedFiles "") none
      ⟨["a.js", "b.js", "c.js"], "docs.json", none, "info", true⟩ = ["a.js"] ∧
    ∃ all only text,
      run (mixedFiles "") none ⟨["a.js", "b.js", "c.js"], "docs.json", none, "info", true⟩ = all ∧
      run (mixedFiles "") none ⟨["a.js"], "docs.json", none, "info", false⟩ = only ∧
      all.result = .ok () ∧ only.result = .ok () ∧
      all.system.get? "docs.json" = some (.file text) ∧
      only.system.get? "docs.json" = some (.file text) := by
  have inputs : usableInputs (mixedFiles "") none
      ⟨["a.js", "b.js", "c.js"], "docs.json", none, "info", true⟩ = ["a.js"] := by
    decide +kernel
  have loaded : loadConfig (mixedFiles "") none none = .ok .standard := by
    decide +kernel
  have succeeded : (run (mixedFiles "") none
      ⟨["a.js", "b.js", "c.js"], "docs.json", none, "info", true⟩).result = .ok () := by
    decide +kernel
  obtain ⟨all, only, rfl, isOnly, same, -, texts⟩ := (run_exports_usable (mixedFiles "") none
    ⟨["a.js", "b.js", "c.js"], "docs.json", none, "info", true⟩).1 (by decide +kernel)
      (fun config own => by rw [← Except.ok.inj (loaded.symm.trans own)]; rfl)
      (by rw [inputs]; exact List.cons_ne_nil _ _)
  obtain ⟨text, -, stands, -, alsoStands⟩ := texts succeeded
  rw [inputs] at isOnly
  exact ⟨inputs, _, only, text.toUTF8, rfl, isOnly, succeeded, same.symm.trans succeeded, stands,
    alsoStands⟩

end DocComments
