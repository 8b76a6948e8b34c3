/-
This file proves which files an export names as discovered.

The names make the last field of the export, one to a line. A quoted name has no line feed in it, so
the lines can be told apart from the end of the text upwards, and the text determines the names. The
builder takes note of a file before it parses it but after it was read, so the names are those of
all files that could be read, in the order in which they were looked at. These are all files that
were looked at, unless a run that keeps going meets one that is not text.
-/

import DocComments.Proofs.JsonText
import DocComments.Proofs.Runs

namespace DocComments

/-! ### Lists of texts in the indented layout -/

namespace Json

theorem quote_injective {first second : String} (same : quote first = quote second) :
    first = second := by
  have firstRead := read?_of_spells (spells_text first)
  have secondRead := read?_of_spells (spells_text second)
  rw [same, secondRead] at firstRead
  cases firstRead
  rfl

theorem lineFeed_notMem_escape (c : Char) : '\n' ∉ escape c := by
  have digits : ∀ code < 0x20, hexDigit (code / 16) ≠ '\n' ∧ hexDigit (code % 16) ≠ '\n' := by
    decide
  unfold escape
  split_ifs with quote backslash lineFeed carriageReturn tab backspace formFeed small
  · decide
  · decide
  · decide
  · decide
  · decide
  · decide
  · decide
  · obtain ⟨high, low⟩ := digits c.toNat (Nat.blt_eq.mp small)
    simp [high.symm, low.symm]
  · intro member
    exact lineFeed (beq_iff_eq.mpr (List.mem_singleton.mp member).symm)

theorem lineFeed_notMem_quote (value : String) : '\n' ∉ (quote value).toList := by
  rw [toList_quote]
  intro member
  rcases List.mem_cons.mp member with isQuote | member
  · cases isQuote
  · rcases List.mem_append.mp member with inside | isQuote
    · obtain ⟨c, -, escaped⟩ := List.mem_flatMap.mp inside
      exact lineFeed_notMem_escape c escaped
    · cases List.mem_singleton.mp isQuote

theorem intercalate_concat (separator : Char) (items : List (List Char)) (last : List Char) :
    [separator].intercalate (items ++ [last]) =
      items.flatMap (fun item => item ++ [separator]) ++ last := by
  induction items with
  | nil => exact List.intercalate_singleton
  | cons item items inductionHypothesis =>
    rw [List.flatMap_cons, List.append_assoc, ← inductionHypothesis]
    cases items with
    | nil => simp [List.intercalate_cons_cons]
    | cons other items => simp [List.intercalate_cons_cons]

/-- Texts that end in a last line are the same if the lines and what is before them are. -/
theorem append_lineFeed_inj {before otherBefore line other : List Char} (single : '\n' ∉ line)
    (otherSingle : '\n' ∉ other) (same : before ++ '\n' :: line = otherBefore ++ '\n' :: other) :
    before = otherBefore ∧ line = other := by
  rcases List.append_eq_append_iff.mp same with ⟨more, rfl, rest⟩ | ⟨more, rfl, rest⟩
  · cases more with
    | nil =>
      cases rest
      exact ⟨(List.append_nil _).symm, rfl⟩
    | cons c more =>
      cases rest
      exact absurd (List.mem_append_right _ List.mem_cons_self) single
  · cases more with
    | nil =>
      cases rest
      exact ⟨List.append_nil _, rfl⟩
    | cons c more =>
      cases rest
      exact absurd (List.mem_append_right _ List.mem_cons_self) otherSingle

/-- A text on a line of its own, at this depth. -/
def textLine (depth : Nat) (value : String) : List Char :=
  (newLine depth).toList ++ (quote value).toList

theorem append_textLine_inj {depth : Nat} {before otherBefore : List Char} {value other : String}
    (same : before ++ textLine depth value = otherBefore ++ textLine depth other) :
    before = otherBefore ∧ value = other := by
  have line (value : String) : textLine depth value =
      '\n' :: (List.replicate (2 * depth) ' ' ++ (quote value).toList) := by
    simp [textLine, newLine]
  have single (value : String) :
      '\n' ∉ List.replicate (2 * depth) ' ' ++ (quote value).toList := by
    intro member
    rcases List.mem_append.mp member with blank | inside
    · cases List.eq_of_mem_replicate blank
    · exact lineFeed_notMem_quote value inside
  rw [line, line] at same
  obtain ⟨sameBefore, sameLine⟩ := append_lineFeed_inj (single value) (single other) same
  exact ⟨sameBefore, quote_injective (String.toList_injective (List.append_cancel_left sameLine))⟩

/-- The beginning of a list of texts, up to the comma after the last of these. -/
def listStart (depth : Nat) (values : List String) : List Char :=
  '[' :: values.flatMap fun value => textLine depth value ++ [',']

theorem listStart_concat (depth : Nat) (values : List String) (last : String) :
    listStart depth (values ++ [last]) =
      listStart depth values ++ textLine depth last ++ [','] := by
  simp [listStart]

/-- The texts of a list can be told from how it begins, whatever stands before it. -/
theorem append_listStart_inj {depth : Nat} {before otherBefore : List Char}
    {values others : List String}
    (same : before ++ listStart depth values = otherBefore ++ listStart depth others) :
    values = others := by
  -- Read from the end: after the bracket nothing has been listed, after a comma there is a last
  -- text, and it stands on a line of its own.
  induction values using List.reverseRecOn generalizing others with
  | nil =>
    cases others using List.reverseRecOn with
    | nil => rfl
    | append_singleton others other =>
      rw [listStart_concat, ← List.append_assoc] at same
      cases List.append_inj_right' same rfl
  | append_singleton values value inductionHypothesis =>
    cases others using List.reverseRecOn with
    | nil =>
      rw [listStart_concat, ← List.append_assoc] at same
      cases List.append_inj_right' same rfl
    | append_singleton others other =>
      rw [listStart_concat, listStart_concat, ← List.append_assoc, ← List.append_assoc,
        ← List.append_assoc, ← List.append_assoc] at same
      obtain ⟨rest, rfl⟩ := append_textLine_inj (List.append_cancel_right same)
      rw [inductionHypothesis rest]

theorem toList_indented_ofTexts_concat (depth : Nat) (values : List String) (last : String) :
    (indented depth (.ofTexts (values ++ [last]))).toList =
      listStart (depth + 1) values ++ textLine (depth + 1) last ++
        ((newLine depth).toList ++ [']']) := by
  have lines : ((values ++ [last]).map Datum.text).map (fun item =>
      (newLine (depth + 1)).toList ++ (indented (depth + 1) item).toList) =
        values.map (textLine (depth + 1)) ++ [textLine (depth + 1) last] := by
    simp [textLine, indented, Function.comp_def]
  rw [Datum.ofTexts, toList_indented_array depth (by simp), lines, intercalate_concat,
    List.flatMap_map, listStart, List.cons_append, List.cons_append]

/-- A list without texts ends in another way than a list with some. -/
theorem append_indented_ofTexts_nil_ne (depth : Nat) (before otherBefore : List Char)
    (values : List String) (last : String) :
    before ++ (indented depth (.ofTexts [])).toList ≠
      otherBefore ++ (indented depth (.ofTexts (values ++ [last]))).toList := by
  intro same
  have empty : (indented depth (.ofTexts [])).toList = ['['] ++ [']'] := by
    rw [Datum.ofTexts, List.map_nil, indented]
    rfl
  rw [toList_indented_ofTexts_concat, empty, ← List.append_assoc, ← List.append_assoc,
    ← List.append_assoc] at same
  have ends := congrArg List.getLast? (List.append_cancel_right same)
  have noEmpty : (newLine depth).toList ≠ [] := by simp [newLine]
  rw [List.getLast?_concat, List.getLast?_append_of_ne_nil _ noEmpty] at ends
  have isSpace := isGap_newLine depth '[' (List.mem_of_getLast? ends.symm)
  cases isSpace

/-- The texts of a list can be told from the text that ends with it. -/
theorem append_indented_ofTexts_inj {depth : Nat} {before otherBefore : List Char}
    {values others : List String}
    (same : before ++ (indented depth (.ofTexts values)).toList =
      otherBefore ++ (indented depth (.ofTexts others)).toList) :
    values = others := by
  cases values using List.reverseRecOn with
  | nil =>
    cases others using List.reverseRecOn with
    | nil => rfl
    | append_singleton others other =>
      exact absurd same (append_indented_ofTexts_nil_ne depth _ _ others other)
  | append_singleton values value =>
    cases others using List.reverseRecOn with
    | nil => exact absurd same.symm (append_indented_ofTexts_nil_ne depth _ _ values value)
    | append_singleton others other =>
      rw [toList_indented_ofTexts_concat, toList_indented_ofTexts_concat,
        ← List.append_assoc before, ← List.append_assoc otherBefore] at same
      have lines := List.append_cancel_right same
      rw [← List.append_assoc, ← List.append_assoc] at lines
      obtain ⟨rest, rfl⟩ := append_textLine_inj lines
      rw [append_listStart_inj rest]

/-- A table ends with the value of its last field. -/
theorem exists_front_of_lastField (fields : List (String × Datum)) (name : String)
    (datum : Datum) :
    ∃ front, (pretty (.table (fields ++ [(name, datum)]))).toList =
      front ++ (indented 1 datum).toList ++ ['\n', '}'] := by
  have atEnd : (newLine 0).toList ++ ['}'] = ['\n', '}'] := rfl
  rw [pretty, toList_indented_table 0 (by simp), List.map_append, List.map_singleton,
    intercalate_concat, atEnd]
  generalize List.flatMap _ _ = earlier
  refine ⟨'{' :: (earlier ++ ((newLine 1).toList ++ ((quote name).toList ++ [':', ' ']))), ?_⟩
  simp only [Nat.zero_add, List.cons_append, List.append_assoc, List.nil_append]

end Json

/-! ### Discovered files -/

/-- The text is an export that names these files as discovered. -/
def NamesDiscovered (text : String) (files : List String) : Prop :=
  ∃ fields, text = Json.pretty (.table (fields ++ [("discovered_files", .ofTexts files)]))

/-- A text names one list of files at most. -/
theorem NamesDiscovered.unique {text : String} {files others : List String}
    (names : NamesDiscovered text files) (namesOthers : NamesDiscovered text others) :
    files = others := by
  obtain ⟨fields, rfl⟩ := names
  obtain ⟨otherFields, same⟩ := namesOthers
  obtain ⟨front, ends⟩ :=
    Json.exists_front_of_lastField fields "discovered_files" (.ofTexts files)
  obtain ⟨otherFront, otherEnds⟩ :=
    Json.exists_front_of_lastField otherFields "discovered_files" (.ofTexts others)
  rw [same, otherEnds] at ends
  exact (Json.append_indented_ofTexts_inj (List.append_cancel_right ends)).symm

theorem Documentation.namesDiscovered_of_toJson {documentation : Documentation} {table : TagTable}
    {text : String} (made : documentation.toJson table true = .ok text) :
    NamesDiscovered text documentation.discoveredFiles := by
  rw [toJson, toDatum] at made
  cases listed : documentation.tree.lists table with
  | error error =>
    rw [listed] at made
    cases made
  | ok lists =>
    rw [listed] at made
    exact ⟨_, (Except.ok.inj made).symm⟩

variable {system : FileSystem} {configDirectory : Option String} {arguments : Arguments}

theorem discoveredFiles_of_builderOf {config : AppConfig} {fresh : DocBuilder}
    (built : builderOf system config = .ok fresh) : fresh.documentation.discoveredFiles = [] := by
  have accepted : ∃ table, DocBuilder.ofConfig config.parser table = .ok fresh := by
    rw [builderOf] at built
    cases path : config.tagsPath with
    | none =>
      rw [path] at built
      exact ⟨.builtin, built⟩
    | some path =>
      simp only [path] at built
      obtain ⟨table, -, built⟩ := exists_ok_of_bind built
      exact ⟨table, built⟩
  obtain ⟨table, accepted⟩ := accepted
  obtain ⟨parser, -, rfl⟩ := DocBuilder.ofConfig_eq_ok_iff.mp accepted
  rfl

theorem isSome_readText?_of_usable {parser : DocParser} {path : String}
    (isUsable : usable system parser path = true) : (system.readText? path).isSome = true := by
  rw [usable] at isUsable
  cases read : system.readText? path with
  | none =>
    rw [read] at isUsable
    cases isUsable
  | some text => rfl

/-- However parsing goes on, a builder that comes out of it has taken note of the files that could
be read. -/
theorem discoveredFiles_of_parseFiles {keepGoing : Bool} {builder later : DocBuilder}
    {files : List String} (parsed : (parseFiles system keepGoing builder files).2 = .ok later) :
    later.documentation.discoveredFiles = builder.documentation.discoveredFiles ++
      files.filter fun path => (system.readText? path).isSome := by
  have passed : keepGoing = true ∨ ∀ path ∈ files, usable system builder.parser path = true := by
    cases keepGoing with
    | true => exact .inl rfl
    | false => exact .inr (usable_of_parseFiles parsed)
  rw [parseFiles_of_passed passed] at parsed
  cases parsed
  rw [DocBuilder.parseSources_eq, map_fst_sourcesOf]

/-- What a run looks at: the files that are discovered from its inputs. -/
theorem exists_filter_of_prepare {config : AppConfig} {files : List String}
    (prepared : prepare system configDirectory arguments = .ok (config, files)) :
    loadConfig system configDirectory arguments.config = .ok config ∧
      ∃ filter, FileFilter.ofConfig config.discovery = .ok filter ∧
        filter.discover system (inputsOf arguments config) = .ok files := by
  obtain ⟨own, loaded, prepared⟩ := exists_ok_of_bind prepared
  obtain ⟨filter, made, prepared⟩ := exists_ok_of_bind prepared
  obtain ⟨ownFiles, discovered, prepared⟩ := exists_ok_of_bind prepared
  cases prepared
  exact ⟨loaded, filter, made, discovered⟩

/-- If the discovered files are asked for, a run that succeeds names those that could be read. -/
theorem namesDiscovered_of_run {config : AppConfig} {files : List String} {text : String}
    (succeeded : (run system configDirectory arguments).result = .ok ())
    (prepared : prepare system configDirectory arguments = .ok (config, files))
    (asked : config.discovery.allSourceFiles = true)
    (read : (run system configDirectory arguments).system.readText? arguments.output = some text) :
    NamesDiscovered text (files.filter fun path => (system.readText? path).isSome) := by
  obtain ⟨own, ownFiles, fresh, builder, alsoPrepared, built, parsed, exported⟩ :=
    exists_steps_of_run succeeded
  cases prepared.symm.trans alsoPrepared
  obtain ⟨written, isText, stored⟩ := exists_text_of_writeExport exported
  cases (FileSystem.readText?_of_write? stored).symm.trans read
  rw [asked] at isText
  have names := Documentation.namesDiscovered_of_toJson isText
  rwa [discoveredFiles_of_parseFiles parsed, discoveredFiles_of_builderOf built,
    List.nil_append] at names

/-- A run that succeeds and does not keep going after failures has read all its files. -/
theorem isSome_readText?_of_run {config : AppConfig} {files : List String}
    (succeeded : (run system configDirectory arguments).result = .ok ())
    (prepared : prepare system configDirectory arguments = .ok (config, files))
    (stops : arguments.keepGoing = false) :
    ∀ path ∈ files, (system.readText? path).isSome = true := by
  obtain ⟨own, ownFiles, fresh, builder, alsoPrepared, -, parsed, -⟩ :=
    exists_steps_of_run succeeded
  cases prepared.symm.trans alsoPrepared
  rw [stops] at parsed
  exact fun path member => isSome_readText?_of_usable (usable_of_parseFiles parsed path member)

/-- The files that a run names as discovered. If a run succeeds, then its output has a text; and if
the discovered files are asked for, the text names those of the files that could be read, in order
and as often as they were discovered, and no other list. So it names all of them exactly if all
could be read, which is always so if the run does not keep going after failures. -/
theorem run_names_read_files
    (succeeded : (run system configDirectory arguments).result = .ok ()) :
    ∃ config filter files text,
      loadConfig system configDirectory arguments.config = .ok config ∧
      FileFilter.ofConfig config.discovery = .ok filter ∧
      filter.discover system (inputsOf arguments config) = .ok files ∧
      (run system configDirectory arguments).system.readText? arguments.output = some text ∧
      (config.discovery.allSourceFiles = true →
        (∀ named, NamesDiscovered text named ↔
          named = files.filter fun path => (system.readText? path).isSome) ∧
        (NamesDiscovered text files ↔ ∀ path ∈ files, (system.readText? path).isSome = true)) ∧
      (arguments.keepGoing = false → ∀ path ∈ files, (system.readText? path).isSome = true) := by
  obtain ⟨config, files, fresh, builder, prepared, -⟩ := exists_steps_of_run succeeded
  obtain ⟨loaded, filter, made, discovered⟩ := exists_filter_of_prepare prepared
  obtain ⟨text, stored, -⟩ := exists_text_of_run succeeded
  have read := FileSystem.readText?_of_write? stored
  refine ⟨config, filter, files, text, loaded, made, discovered, read, fun asked => ?_,
    isSome_readText?_of_run succeeded prepared⟩
  have names := namesDiscovered_of_run succeeded prepared asked read
  have namesOnly (named : List String) : NamesDiscovered text named ↔
      named = files.filter fun path => (system.readText? path).isSome := by
    constructor
    · exact fun namesAlso => namesAlso.unique names
    · rintro rfl
      exact names
  exact ⟨namesOnly, by rw [namesOnly, eq_comm, List.filter_eq_self]⟩

/-- The mixed files, with settings that ask for the discovered files. -/
def listingFiles : FileSystem :=
  mixedFiles "[discovery]\nall_source_files = true\n"

/-- Arguments to keep going through all of them. -/
def listingArguments : Arguments :=
  ⟨["a.js", "b.js", "c.js"], "docs.json", none, "info", true⟩

theorem prepare_listing :
    prepare listingFiles none listingArguments =
      .ok ({ AppConfig.standard with
          discovery := { DiscoveryConfig.standard with allSourceFiles := true } },
        ["a.js", "b.js", "c.js"]) := by
  decide +kernel

theorem result_run_listing : (run listingFiles none listingArguments).result = .ok () := by
  decide +kernel

theorem filter_readText?_listing :
    (["a.js", "b.js", "c.js"].filter fun path => (listingFiles.readText? path).isSome) =
      ["a.js", "b.js"] := by
  decide +kernel

/-- Of three files that are discovered the export names two: one that was parsed, and one that was
refused. -/
theorem run_names_read_files_listing :
    (run listingFiles none listingArguments).result = .ok () ∧
    ∃ text,
      (run listingFiles none listingArguments).system.readText? "docs.json" = some text ∧
      NamesDiscovered text ["a.js", "b.js"] := by
  obtain ⟨config, filter, files, text, loaded, made, discovered, read, names, -⟩ :=
    run_names_read_files result_run_listing
  obtain ⟨alsoLoaded, other, alsoMade, alsoDiscovered⟩ := exists_filter_of_prepare prepare_listing
  cases loaded.symm.trans alsoLoaded
  cases made.symm.trans alsoMade
  cases discovered.symm.trans alsoDiscovered
  exact ⟨result_run_listing, text, read, ((names rfl).1 _).mpr filter_readText?_listing.symm⟩

/-- A file that cannot be read is discovered and handed to the builder, and yet the export does not
name it. -/
theorem run_omits_unread_file :
    ¬ ∀ (system : FileSystem) (configDirectory : Option String) (arguments : Arguments)
        (config : AppConfig) (filter : FileFilter) (files : List String) (text : String),
      (run system configDirectory arguments).result = .ok () →
      loadConfig system configDirectory arguments.config = .ok config →
      FileFilter.ofConfig config.discovery = .ok filter →
      filter.discover system (inputsOf arguments config) = .ok files →
      config.discovery.allSourceFiles = true →
      (run system configDirectory arguments).system.readText? arguments.output = some text →
      NamesDiscovered text files := by
  intro complete
  obtain ⟨loaded, filter, made, discovered⟩ := exists_filter_of_prepare prepare_listing
  obtain ⟨text, stored, -⟩ := exists_text_of_run result_run_listing
  have read := FileSystem.readText?_of_write? stored
  have names := namesDiscovered_of_run result_run_listing prepare_listing rfl read
  have namesAll := complete _ _ _ _ filter _ text result_run_listing loaded made discovered rfl read
  have same := names.unique namesAll
  rw [filter_readText?_listing] at same
  cases same

end DocComments
