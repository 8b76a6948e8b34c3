/-
This file proves which files the inputs of a run stand for.

An input that is a file stands for itself, whatever it is called. An input that is a directory
stands for the files below it that the patterns of the settings choose, in the order of the walk;
the name of the input itself is never looked at. The settings decide by patterns that are read
once, and the filter made of them asks the same of a name as the settings do. An input that does
not exist makes the whole search fail. Two systems that differ only in the order in which
directories hold their entries answer alike: paths lead to the same places in both, and below these
places the same files are wanted.
-/

import DocComments.Proofs.VisitedFiles

namespace DocComments

/-! ### Reading a list of items -/

theorem mapM_eq_ok_iff {Item Value Error : Type} {read : Item → Except Error Value}
    {items : List Item} {values : List Value} :
    items.mapM read = .ok values ↔
      List.Forall₂ (fun item value => read item = .ok value) items values := by
  induction items generalizing values with
  | nil => simp [pure, Except.pure, eq_comm]
  | cons item items inductionHypothesis =>
    rw [List.mapM_cons]
    constructor
    · intro succeeds
      obtain ⟨value, own, succeeds⟩ := exists_ok_of_bind succeeds
      obtain ⟨rest, others, succeeds⟩ := exists_ok_of_bind succeeds
      obtain rfl := Except.ok.inj succeeds
      exact .cons own (inductionHypothesis.mp others)
    · rintro (_ | ⟨own, others⟩)
      rw [own, inductionHypothesis.mpr others]
      rfl

theorem exists_of_mapM_eq_error {Item Value Error : Type} {read : Item → Except Error Value}
    {items : List Item} {error : Error} (failed : items.mapM read = .error error) :
    ∃ item ∈ items, read item = .error error := by
  induction items with
  | nil => cases failed
  | cons item items inductionHypothesis =>
    rw [List.mapM_cons] at failed
    cases own : read item with
    | error ownError =>
      rw [own] at failed
      cases failed
      exact ⟨item, List.mem_cons_self, own⟩
    | ok value =>
      cases others : items.mapM read with
      | error otherError =>
        rw [own, others] at failed
        cases failed
        obtain ⟨other, member, refused⟩ := inductionHypothesis others
        exact ⟨other, List.mem_cons_of_mem _ member, refused⟩
      | ok values =>
        rw [own, others] at failed
        cases failed

/-! ### Settings -/

namespace DiscoveryConfig

/-- A pattern of the settings occurs in a name. -/
def Matches (pattern name : String) : Prop :=
  ∃ read, Pattern.read? pattern.toList = some read ∧ read.occursIn name.toList = true

/-- The settings keep a file of this name: it matches the file pattern and not that of the files to
ignore, if there is one. -/
def Keeps (config : DiscoveryConfig) (name : String) : Prop :=
  Matches config.filePattern name ∧ ∀ ignored ∈ config.ignoreFilePattern, ¬ Matches ignored name

/-- The settings pass over a directory of this name. -/
def Skips (config : DiscoveryConfig) (name : String) : Prop :=
  ∃ ignored ∈ config.ignoreDirPatterns, Matches ignored name

end DiscoveryConfig

namespace FileFilter

open DiscoveryConfig

theorem matches_iff_of_readSetting {setting text : String} {pattern : Pattern}
    (accepted : readSetting setting text = .ok pattern) (name : String) :
    Matches text name ↔ pattern.occursIn name.toList = true := by
  rw [readSetting] at accepted
  rw [Matches]
  cases read : Pattern.read? text.toList with
  | none =>
    rw [read] at accepted
    cases accepted
  | some found =>
    rw [read] at accepted
    obtain rfl := Except.ok.inj accepted
    simp

theorem any_occursIn_iff {setting : String} {texts : List String} {patterns : List Pattern}
    (accepted : List.Forall₂ (fun text pattern => readSetting setting text = .ok pattern) texts
      patterns) (name : String) :
    (patterns.any fun pattern => pattern.occursIn name.toList) = true ↔
      ∃ text ∈ texts, Matches text name := by
  induction accepted with
  | nil => simp
  | cons own others inductionHypothesis =>
    rw [List.any_cons, Bool.or_eq_true, inductionHypothesis, ← matches_iff_of_readSetting own]
    simp

/-- The filter made of settings asks of names what the settings say. -/
theorem follows_of_ofConfig {config : DiscoveryConfig} {filter : FileFilter}
    (compiled : ofConfig config = .ok filter) : filter.Follows config.Keeps config.Skips := by
  obtain ⟨filePattern, readFile, compiled⟩ := exists_ok_of_bind compiled
  obtain ⟨ignoreFile, readIgnore, compiled⟩ := exists_ok_of_bind compiled
  obtain ⟨ignoreDirs, readDirs, compiled⟩ := exists_ok_of_bind compiled
  obtain rfl := Except.ok.inj compiled
  refine ⟨fun name => ?_, fun name => any_occursIn_iff (mapM_eq_ok_iff.mp readDirs) name⟩
  have ignores : (ignoreFile.any fun pattern => pattern.occursIn name.toList) = true ↔
      ∃ ignored ∈ config.ignoreFilePattern, Matches ignored name := by
    cases ignored : config.ignoreFilePattern with
    | none =>
      rw [ignored] at readIgnore
      obtain rfl := Except.ok.inj readIgnore
      simp
    | some text =>
      rw [ignored] at readIgnore
      obtain ⟨pattern, accepted, readIgnore⟩ := exists_ok_of_bind readIgnore
      obtain rfl := Except.ok.inj readIgnore
      simp [matches_iff_of_readSetting accepted]
  rw [Keeps, matches_iff_of_readSetting readFile, Bool.and_eq_true, Bool.not_eq_true',
    ← Bool.not_eq_true, ignores]
  simp

end FileFilter

/-! ### Reordered directories -/

namespace FileNode

/-- The nodes hold the same, up to the order of the entries in their directories. -/
inductive Reordered : FileNode → FileNode → Prop where
  | file (bytes : ByteArray) : Reordered (.file bytes) (.file bytes)
  | directory {entries others : List (String × FileNode)}
      (names : (Entries.keys entries).Perm (Entries.keys others))
      (below : ∀ name node other, (name, node) ∈ entries → (name, other) ∈ others →
        Reordered node other) : Reordered (.directory entries) (.directory others)

variable {first second : FileNode}

theorem Reordered.proper (reordered : Reordered first second) (proper : first.Proper) :
    second.Proper := by
  induction reordered with
  | file bytes => exact .file bytes
  | directory names below inductionHypothesis =>
    obtain _ | ⟨distinct, named, properBelow⟩ := proper
    refine .directory (names.nodup_iff.mp distinct)
      (fun name member => named name (names.mem_iff.mpr member)) fun ⟨name, other⟩ member => ?_
    obtain ⟨node, found⟩ :=
      Entries.exists_get?_of_mem_keys (names.mem_iff.mpr (Entries.mem_keys_of_mem member))
    have inside := Entries.mem_of_get? found
    exact inductionHypothesis name node other inside member (properBelow (name, node) inside)

theorem rel_get?_of_reordered {entries others : List (String × FileNode)}
    (reordered : Reordered (.directory entries) (.directory others)) (name : String) :
    Option.Rel Reordered (Entries.get? entries name) (Entries.get? others name) := by
  obtain _ | ⟨names, below⟩ := reordered
  by_cases known : name ∈ Entries.keys entries
  · obtain ⟨node, found⟩ := Entries.exists_get?_of_mem_keys known
    obtain ⟨other, otherFound⟩ := Entries.exists_get?_of_mem_keys (names.mem_iff.mp known)
    rw [found, otherFound]
    exact .some (below name node other (Entries.mem_of_get? found) (Entries.mem_of_get? otherFound))
  · rw [Entries.get?_eq_none_iff.mpr known,
      Entries.get?_eq_none_iff.mpr (mt names.mem_iff.mpr known)]
    exact .none

theorem Reordered.rel_descend? (reordered : Reordered first second) (names : List String) :
    Option.Rel Reordered (first.descend? names) (second.descend? names) := by
  induction names generalizing first second with
  | nil =>
    rw [descend?_nil, descend?_nil]
    exact .some reordered
  | cons name names inductionHypothesis =>
    cases reordered with
    | file bytes => exact .none
    | @directory entries others keys below =>
      have related := rel_get?_of_reordered (.directory keys below) name
      rw [descend?_directory, descend?_directory]
      generalize Entries.get? entries name = found at related ⊢
      generalize Entries.get? others name = otherFound at related ⊢
      cases related with
      | none => exact .none
      | some inner => exact inductionHypothesis inner

theorem Reordered.symm (reordered : Reordered first second) : Reordered second first := by
  induction reordered with
  | file bytes => exact .file bytes
  | directory names below inductionHypothesis =>
    exact .directory names.symm fun name other node member inside =>
      inductionHypothesis name node other inside member

theorem Reordered.descend?_eq_file (reordered : Reordered first second) {names : List String}
    {bytes : ByteArray} (found : first.descend? names = some (.file bytes)) :
    second.descend? names = some (.file bytes) := by
  have related := reordered.rel_descend? names
  rw [found] at related
  generalize second.descend? names = answer at related ⊢
  obtain ⟨⟨_⟩⟩ := related
  rfl

/-- What is wanted below a node does not depend on the order of entries. -/
theorem Reordered.wanted_iff (reordered : Reordered first second) {keeps skips : String → Prop}
    (names : List String) : first.Wanted keeps skips names ↔ second.Wanted keeps skips names := by
  constructor
  · rintro ⟨⟨bytes, found⟩, kept, entered⟩
    exact ⟨⟨bytes, reordered.descend?_eq_file found⟩, kept, entered⟩
  · rintro ⟨⟨bytes, found⟩, kept, entered⟩
    exact ⟨⟨bytes, reordered.symm.descend?_eq_file found⟩, kept, entered⟩

end FileNode

namespace FileSystem

/-- Parts lead to the same place, whatever the order of entries. -/
theorem follow?_of_reordered {first second : FileNode} (reordered : first.Reordered second)
    (place parts : List String) : follow? first place parts = follow? second place parts := by
  induction parts generalizing place with
  | nil => rfl
  | cons part parts inductionHypothesis =>
    have related := reordered.rel_descend? place.reverse
    rw [follow?, follow?]
    generalize first.descend? place.reverse = found at related ⊢
    generalize second.descend? place.reverse = otherFound at related ⊢
    cases related with
    | none => rfl
    | some same =>
      cases same with
      | file bytes => rfl
      | @directory entries others names below =>
        have known : (Entries.get? entries part).isSome = (Entries.get? others part).isSome := by
          rw [Bool.eq_iff_iff, Entries.get?_isSome_iff, Entries.get?_isSome_iff, names.mem_iff]
        simp only [inductionHypothesis, known]

theorem rel_get? {system : FileSystem} {other : FileNode} (reordered : system.top.Reordered other)
    (path : String) :
    Option.Rel FileNode.Reordered (system.get? path) (get? { system with top := other } path) := by
  have located : locate? { system with top := other } path = system.locate? path := by
    simp only [locate?, follow?_of_reordered reordered]
    rfl
  rw [get?, get?, located]
  cases system.locate? path with
  | none => exact .none
  | some place => exact reordered.rel_descend? place

end FileSystem

/-! ### Inputs -/

namespace DiscoveryConfig

/-- The files that an input stands for: a file for itself, and a directory for the files below it
that the settings want, each of them once and in the order of the walk. -/
inductive StandsFor (config : DiscoveryConfig) (system : FileSystem) (input : String) :
    List String → Prop where
  | file {bytes : ByteArray} (found : system.get? input = some (.file bytes)) :
      StandsFor config system input [input]
  | directory {entries : List (String × FileNode)} {files : List String}
      (found : system.get? input = some (.directory entries))
      (lists : ListsInOrder ((FileNode.directory entries).Wanted config.Keeps config.Skips) input
        files)
      (once : files.Nodup) : StandsFor config system input files

end DiscoveryConfig

namespace FileFilter

variable {config : DiscoveryConfig} {filter : FileFilter} {system : FileSystem}

theorem proper_of_get? (proper : system.top.Proper) {path : String} {node : FileNode}
    (found : system.get? path = some node) : node.Proper := by
  obtain ⟨place, -, descended⟩ := Option.bind_eq_some_iff.mp found
  exact (proper.of_descend? descended).1

theorem filesOfInput_eq_error_iff {input : String} {failure : Failure} :
    filter.filesOfInput system input = .error failure ↔
      system.get? input = none ∧ failure = .inputOutput := by
  rw [filesOfInput]
  cases system.get? input with
  | none => simp [eq_comm]
  | some node =>
    cases node with
    | file bytes => simp
    | directory entries => simp

/-- An input is answered by the files that it stands for, and by no others. -/
theorem filesOfInput_eq_ok_iff (follows : filter.Follows config.Keeps config.Skips)
    (proper : system.top.Proper) {input : String} {files : List String} :
    filter.filesOfInput system input = .ok files ↔ config.StandsFor system input files := by
  rw [filesOfInput]
  cases found : system.get? input with
  | none =>
    refine iff_of_false nofun ?_
    rintro (isFile | isDirectory)
    · cases found.symm.trans isFile
    · cases found.symm.trans isDirectory
  | some node =>
    cases node with
    | file bytes =>
      constructor
      · intro same
        obtain rfl := Except.ok.inj same
        exact .file found
      · rintro (isFile | isDirectory)
        · rfl
        · cases found.symm.trans isDirectory
    | directory entries =>
      have properInput := proper_of_get? proper found
      have listed := listsInOrder_filesBelow follows properInput input
      constructor
      · intro same
        obtain rfl := Except.ok.inj same
        refine .directory found listed (listed.nodup (FileNode.not_wanted_nil _) ?_)
        rintro names ⟨⟨bytes, descended⟩, -, -⟩
        exact (properInput.of_descend? descended).2
      · rintro (isFile | ⟨isDirectory, lists, -⟩)
        · cases found.symm.trans isFile
        · cases found.symm.trans isDirectory
          exact congrArg Except.ok (listed.unique lists)

/-- The order in which directories hold their entries does not matter for an input. -/
theorem filesOfInput_of_reordered (follows : filter.Follows config.Keeps config.Skips)
    (proper : system.top.Proper) {other : FileNode} (reordered : system.top.Reordered other)
    (input : String) :
    filter.filesOfInput { system with top := other } input = filter.filesOfInput system input := by
  have related := FileSystem.rel_get? reordered input
  rw [filesOfInput, filesOfInput]
  cases found : system.get? input with
  | none =>
    rw [found] at related
    generalize FileSystem.get? { system with top := other } input = otherFound at related ⊢
    cases related with
    | none => rfl
  | some node =>
    have properNode := proper_of_get? proper found
    rw [found] at related
    generalize FileSystem.get? { system with top := other } input = otherFound at related ⊢
    cases related with
    | some same =>
      cases same with
      | file bytes => rfl
      | directory names below =>
        have sameNode := FileNode.Reordered.directory names below
        have listed := listsInOrder_filesBelow follows properNode input
        have otherListed := listsInOrder_filesBelow follows (sameNode.proper properNode) input
        exact congrArg Except.ok (otherListed.unique (listed.congr sameNode.wanted_iff))

theorem discover_eq_ok_iff (follows : filter.Follows config.Keeps config.Skips)
    (proper : system.top.Proper) {inputs files : List String} :
    filter.discover system inputs = .ok files ↔
      ∃ groups, List.Forall₂ (config.StandsFor system) inputs groups ∧ files = groups.flatten := by
  have answered {groups : List (List String)} :
      inputs.mapM (filter.filesOfInput system) = .ok groups ↔
        List.Forall₂ (config.StandsFor system) inputs groups := by
    simp only [mapM_eq_ok_iff, filesOfInput_eq_ok_iff follows proper]
  simp only [← answered]
  rw [discover]
  cases inputs.mapM (filter.filesOfInput system) with
  | error failure => simp [Except.map]
  | ok groups => simp [Except.map, eq_comm]

/-- The search fails for a missing input only. -/
theorem missing_of_discover_eq_error {inputs : List String} {failure : Failure}
    (failed : filter.discover system inputs = .error failure) :
    failure = .inputOutput ∧ ∃ input ∈ inputs, system.get? input = none := by
  rw [discover] at failed
  cases read : inputs.mapM (filter.filesOfInput system) with
  | ok groups =>
    rw [read] at failed
    cases failed
  | error inner =>
    rw [read] at failed
    cases failed
    obtain ⟨input, member, refused⟩ := exists_of_mapM_eq_error read
    obtain ⟨missing, rfl⟩ := filesOfInput_eq_error_iff.mp refused
    exact ⟨rfl, input, member, missing⟩

theorem isSome_get?_of_standsFor {input : String} {files : List String}
    (stands : config.StandsFor system input files) : (system.get? input).isSome = true := by
  cases stands with
  | file found => rw [found, Option.isSome_some]
  | directory found lists once => rw [found, Option.isSome_some]

/-- Inputs that are answered exist. -/
theorem isSome_get?_of_discover (follows : filter.Follows config.Keeps config.Skips)
    (proper : system.top.Proper) {inputs files : List String}
    (answered : filter.discover system inputs = .ok files) :
    ∀ input ∈ inputs, (system.get? input).isSome = true := by
  obtain ⟨groups, each, -⟩ := (discover_eq_ok_iff follows proper).mp answered
  clear answered
  induction each with
  | nil => exact fun _ member => absurd member List.not_mem_nil
  | cons own others inductionHypothesis =>
    exact List.forall_mem_cons.mpr ⟨isSome_get?_of_standsFor own, inductionHypothesis⟩

/-- The inputs of a run, in order, are answered by the files that each of them stands for, if all of
them exist; and if one does not exist, the answer is a failure of input. The order in which the
system holds the entries of directories does not matter. -/
theorem discover_lists_wanted_files (compiled : ofConfig config = .ok filter)
    (proper : system.top.Proper) (inputs : List String) :
    (∀ files, filter.discover system inputs = .ok files ↔
      ∃ groups, List.Forall₂ (config.StandsFor system) inputs groups ∧ files = groups.flatten) ∧
    ((∃ files, filter.discover system inputs = .ok files) ↔
      ∀ input ∈ inputs, (system.get? input).isSome = true) ∧
    (∀ input ∈ inputs, system.get? input = none →
      filter.discover system inputs = .error .inputOutput) ∧
    (∀ other, system.top.Reordered other →
      filter.discover { system with top := other } inputs = filter.discover system inputs) := by
  have follows := follows_of_ofConfig compiled
  refine ⟨fun files => discover_eq_ok_iff follows proper, ⟨?_, ?_⟩, ?_, ?_⟩
  · rintro ⟨files, answered⟩
    exact isSome_get?_of_discover follows proper answered
  · intro exist
    cases answer : filter.discover system inputs with
    | ok files => exact ⟨files, rfl⟩
    | error failure =>
      obtain ⟨-, input, member, missing⟩ := missing_of_discover_eq_error answer
      have known := exist input member
      rw [missing] at known
      cases known
  · intro input member missing
    cases answer : filter.discover system inputs with
    | ok files =>
      have known := isSome_get?_of_discover follows proper answer input member
      rw [missing] at known
      cases known
    | error failure => rw [(missing_of_discover_eq_error answer).1]
  · intro other reordered
    rw [discover, discover, funext (filesOfInput_of_reordered follows proper reordered)]

/-- Settings that leave out what was built. -/
def sourcesOnly : DiscoveryConfig :=
  { DiscoveryConfig.standard with
    ignoreFilePattern := some "\\.min\\.js$", ignoreDirPatterns := ["^build$"] }

/-- The entries of a directory with a file and a directory of nearly the same name. -/
def mixedEntries : List (String × FileNode) :=
  [("a.js", .file ⟨#[]⟩), ("build", .directory [("made.js", .file ⟨#[]⟩)]),
   ("b.min.js", .file ⟨#[]⟩), ("a", .directory [("x.js", .file ⟨#[]⟩)])]

/-- That directory, which is called like one that is left out, next to a file that is not kept. -/
def mixedBuild : FileSystem :=
  ⟨.directory [("notes.txt", .file ⟨#[]⟩), ("build", .directory mixedEntries)], []⟩

theorem proper_mixedBuild : mixedBuild.top.Proper := by
  have single (name : String) (proper : FileNode.EntryName name) :
      (FileNode.directory [(name, .file ⟨#[]⟩)]).Proper := by
    refine .directory (List.nodup_singleton name) (List.forall_mem_singleton.mpr proper) ?_
    exact List.forall_mem_singleton.mpr (.file _)
  have inner : (FileNode.directory mixedEntries).Proper := by
    refine .directory (by decide) (by decide) ?_
    simp only [mixedEntries, List.forall_mem_cons]
    exact ⟨.file _, single _ (by decide), .file _, single _ (by decide), nofun⟩
  refine .directory (by decide) (by decide) ?_
  simp only [List.forall_mem_cons]
  exact ⟨.file _, inner, nofun⟩

theorem answers_sourcesOnly :
    (ofConfig sourcesOnly).map (fun filter =>
      (["a.js", "b.min.js", "x.js"].map fun name => filter.keepsFile name.toList,
        ["a", "build"].map fun name => filter.skipsDirectory name.toList)) =
      .ok ([true, false, true], [false, true]) := by
  decide +kernel

theorem discover_mixedBuild (compiled : ofConfig sourcesOnly = .ok filter) :
    filter.discover mixedBuild ["build", "notes.txt"] =
      .ok ["build/a/x.js", "build/a.js", "notes.txt"] := by
  have answers := answers_sourcesOnly
  rw [compiled] at answers
  simp only [Except.map, List.map_cons, List.map_nil, Except.ok.injEq, Prod.mk.injEq,
    List.cons.injEq, and_true] at answers
  obtain ⟨⟨keepsA, dropsMin, keepsX⟩, entersA, skipsBuild⟩ := answers
  have sorted : mixedEntries.mergeSort namedNotAfter =
      [("a", .directory [("x.js", .file ⟨#[]⟩)]), ("a.js", .file ⟨#[]⟩),
        ("b.min.js", .file ⟨#[]⟩), ("build", .directory [("made.js", .file ⟨#[]⟩)])] := by
    simp [mixedEntries, List.mergeSort, List.MergeSort.Internal.splitInTwo, namedNotAfter,
      Text.notAfter]
  have below : filter.filesBelow "build" (.directory mixedEntries) =
      ["build/a/x.js", "build/a.js"] := by
    rw [filesBelow_directory, sorted]
    simp only [List.flatMap_cons, List.flatMap_nil, filesOfEntry, keepsA, dropsMin, keepsX, entersA,
      skipsBuild, if_true, Bool.false_eq_true, if_false, filesBelow_directory,
      List.mergeSort_singleton]
    rfl
  have first : filter.filesOfInput mixedBuild "build" = .ok ["build/a/x.js", "build/a.js"] :=
    congrArg Except.ok below
  have second : filter.filesOfInput mixedBuild "notes.txt" = .ok ["notes.txt"] := rfl
  rw [discover, List.mapM_cons, List.mapM_cons, first, second]
  rfl

/-- The input is walked although its name is one to skip, and what is below the directory of the
same name in it is left out. The directory comes before the file whose name it begins. -/
theorem discover_lists_wanted_files_mixed :
    mixedBuild.top.Proper ∧ ∃ filter, ofConfig sourcesOnly = .ok filter ∧
      (∃ groups, List.Forall₂ (sourcesOnly.StandsFor mixedBuild) ["build", "notes.txt"] groups ∧
        ["build/a/x.js", "build/a.js", "notes.txt"] = groups.flatten) ∧
      filter.discover mixedBuild ["build", "gone.js"] = .error .inputOutput := by
  cases compiled : ofConfig sourcesOnly with
  | error failure =>
    have answers := answers_sourcesOnly
    rw [compiled] at answers
    cases answers
  | ok filter =>
    obtain ⟨answered, -, -, -⟩ :=
      discover_lists_wanted_files compiled proper_mixedBuild ["build", "notes.txt"]
    obtain ⟨-, -, missing, -⟩ :=
      discover_lists_wanted_files compiled proper_mixedBuild ["build", "gone.js"]
    exact ⟨proper_mixedBuild, filter, rfl, (answered _).mp (discover_mixedBuild compiled),
      missing "gone.js" (by decide) rfl⟩

end FileFilter

end DocComments
