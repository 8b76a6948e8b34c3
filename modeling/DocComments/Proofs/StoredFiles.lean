/-
This file proves that a text that was written to a path is read from it again.

A file is written into a directory that exists, to a place where no directory stands. So every
directory that a path leads through is still there afterwards, with all the names it had, and a path
whose parts could be followed before can be followed to the same place.
-/

import DocComments.Files.Tree
import DocComments.Proofs.Entries

namespace DocComments

/-! ### Places below a node -/

namespace FileNode

theorem descend?_nil (node : FileNode) : node.descend? [] = some node := by
  cases node with
  | file bytes => rfl
  | directory entries => rfl

theorem descend?_directory (entries : List (String × FileNode)) (name : String)
    (names : List String) :
    (directory entries).descend? (name :: names) =
      (Entries.get? entries name).bind (·.descend? names) := by
  rw [descend?]
  cases Entries.get? entries name with
  | none => rfl
  | some child => rfl

theorem descend?_append (node : FileNode) (first second : List String) :
    node.descend? (first ++ second) = (node.descend? first).bind (·.descend? second) := by
  induction first generalizing node with
  | nil => rw [List.nil_append, descend?_nil, Option.bind_some]
  | cons name names inductionHypothesis =>
    cases node with
    | file bytes => rfl
    | directory entries =>
      rw [List.cons_append, descend?_directory, descend?_directory, Option.bind_assoc]
      exact Option.bind_congr fun child _ => inductionHypothesis child

/-- Nothing is found below a file. -/
theorem eq_nil_of_descend?_file {bytes : ByteArray} {names : List String} {node : FileNode}
    (found : (file bytes).descend? names = some node) : names = [] := by
  cases names with
  | nil => rfl
  | cons name names => cases found

/-- A node is found where it was put. -/
theorem descend?_insert_self (node place : FileNode) (names : List String) :
    (insert node names place).descend? names = some node := by
  induction names generalizing place with
  | nil => exact descend?_nil node
  | cons name names inductionHypothesis =>
    simp only [insert, descend?_directory, Entries.get?_alter_self, Option.bind_some]
    exact inductionHypothesis _

/-- All names of the one directory are names of the other. -/
def NamesKept (before after : List (String × FileNode)) : Prop :=
  ∀ name, (Entries.get? before name).isSome = true → (Entries.get? after name).isSome = true

theorem namesKept_alter (change : Option FileNode → FileNode) (entries : List (String × FileNode))
    (name : String) : NamesKept entries (Entries.alter change entries name) := by
  intro other known
  by_cases same : other = name
  · rw [same, Entries.get?_alter_self]
    rfl
  · rwa [Entries.get?_alter_of_ne change entries same]

/-- A directory stays a directory and keeps its names when a node is put anywhere but in its place
or in the place of a directory above it. -/
theorem descend?_insert_directory (node : FileNode) {names place : List String} {top : FileNode}
    {entries : List (String × FileNode)}
    (found : top.descend? place = some (.directory entries)) (apart : ¬ names <+: place) :
    ∃ later, (insert node names top).descend? place = some (.directory later) ∧
      NamesKept entries later := by
  -- The node is put in by going down the names, and so is the directory looked up; the two ways
  -- part at the first name in which they differ.
  induction names generalizing top place with
  | nil => exact absurd List.nil_prefix apart
  | cons name names inductionHypothesis =>
    cases top with
    | file bytes =>
      obtain rfl := eq_nil_of_descend?_file found
      cases found
    | directory inner =>
      cases place with
      | nil =>
        cases found
        exact ⟨_, rfl, namesKept_alter _ _ _⟩
      | cons part parts =>
        rw [insert, descend?_directory]
        rw [descend?_directory] at found
        by_cases same : part = name
        · subst same
          obtain ⟨child, isChild, below⟩ := Option.bind_eq_some_iff.mp found
          rw [Entries.get?_alter_self, isChild]
          exact inductionHypothesis below fun longer =>
            apart (List.cons_prefix_cons.mpr ⟨rfl, longer⟩)
        · rw [Entries.get?_alter_of_ne _ _ same]
          exact ⟨entries, found, fun _ known => known⟩

end FileNode

/-! ### Paths -/

namespace FileSystem

theorem follow?_append (top : FileNode) (place first second : List String) :
    follow? top place (first ++ second) =
      (follow? top place first).bind fun found => follow? top found second := by
  induction first generalizing place with
  | nil => rfl
  | cons part parts inductionHypothesis =>
    rw [List.cons_append, follow?, follow?]
    split
    · split_ifs
      · exact inductionHypothesis place
      · exact inductionHypothesis place.tail
      · exact inductionHypothesis (part :: place)
      · rfl
    · rfl

/-- Where directories stay and keep their names, parts lead to the same place. -/
theorem follow?_of_namesKept {before after : FileNode}
    (kept : ∀ place entries, before.descend? place = some (.directory entries) →
      ∃ later, after.descend? place = some (.directory later) ∧ FileNode.NamesKept entries later)
    {place parts found : List String} (followed : follow? before place parts = some found) :
    follow? after place parts = some found := by
  induction parts generalizing place with
  | nil => exact followed
  | cons part parts inductionHypothesis =>
    rw [follow?] at followed ⊢
    split at followed
    · rename_i entries isDirectory
      obtain ⟨later, stillDirectory, names⟩ := kept _ _ isDirectory
      rw [stillDirectory]
      simp only
      split_ifs at followed with stays up known
      · rw [if_pos stays]
        exact inductionHypothesis followed
      · rw [if_neg stays, if_pos up]
        exact inductionHypothesis followed
      · rw [if_neg stays, if_neg up, if_pos (names part known)]
        exact inductionHypothesis followed
    · cases followed

/-- The target of a path is the place of its last part in the directory that the parts before it
lead to, where there is no directory yet. -/
theorem of_target? {system : FileSystem} {path : String} {place : List String}
    (target : system.target? path = some place) :
    ∃ parents name directory entries,
      (system.startOf path).2 = parents ++ [name] ∧
      (name == "" || name == ".") = false ∧ (name == "..") = false ∧
      follow? system.top (system.startOf path).1 parents = some directory ∧
      system.top.descend? directory.reverse = some (.directory entries) ∧
      (∀ inner, Entries.get? entries name ≠ some (.directory inner)) ∧
      place = directory.reverse ++ [name] := by
  rw [target?] at target
  simp only at target
  split at target
  · cases target
  · rename_i name parents reversed
    split_ifs at target with special
    split at target
    · cases target
    · rename_i directory followed
      split at target
      · rename_i entries isDirectory
        split at target
        · cases target
        · rename_i noDirectory
          have parts : (system.startOf path).2 = parents.reverse ++ [name] := by
            rw [← List.reverse_reverse (system.startOf path).2, reversed, List.reverse_cons]
          rw [Bool.or_eq_true, not_or, Bool.not_eq_true, Bool.not_eq_true] at special
          exact ⟨parents.reverse, name, directory, entries, parts, special.1, special.2, followed,
            isDirectory, fun inner => noDirectory inner,
            (Option.some.inj target).symm.trans List.reverse_cons⟩
      · cases target

theorem ne_empty_of_target? {system : FileSystem} {path : String} {place : List String}
    (target : system.target? path = some place) : path ≠ "" := by
  rintro rfl
  cases target

/-- Writing to a path leaves all directories and their names. -/
theorem namesKept_of_target? {system : FileSystem} {path : String} {target : List String}
    (isTarget : system.target? path = some target) (node : FileNode) {place : List String}
    {entries : List (String × FileNode)}
    (found : system.top.descend? place = some (.directory entries)) :
    ∃ later, (FileNode.insert node target system.top).descend? place = some (.directory later) ∧
      FileNode.NamesKept entries later := by
  obtain ⟨parents, name, directory, siblings, -, -, -, -, isDirectory, noDirectory, rfl⟩ :=
    of_target? isTarget
  refine FileNode.descend?_insert_directory node found ?_
  rintro ⟨below, rfl⟩
  rw [List.append_assoc, FileNode.descend?_append, isDirectory, Option.bind_some,
    List.singleton_append, FileNode.descend?_directory] at found
  obtain ⟨child, isChild, isBelow⟩ := Option.bind_eq_some_iff.mp found
  cases child with
  | directory inner => exact noDirectory inner isChild
  | file bytes =>
    obtain rfl := FileNode.eq_nil_of_descend?_file isBelow
    cases isBelow

/-- What was written to a path stands there. -/
theorem get?_of_write? {before after : FileSystem} {path text : String}
    (written : before.write? path text = some after) :
    after.get? path = some (.file text.toUTF8) := by
  obtain ⟨target, isTarget, rfl⟩ := Option.map_eq_some_iff.mp written
  have kept (place : List String) (entries : List (String × FileNode))
      (found : before.top.descend? place = some (.directory entries)) :=
    namesKept_of_target? isTarget (.file text.toUTF8) found
  have named := ne_empty_of_target? isTarget
  obtain ⟨parents, name, directory, entries, parts, plain, notUp, followed, isDirectory, -, rfl⟩ :=
    of_target? isTarget
  obtain ⟨later, stillDirectory, -⟩ := kept _ _ isDirectory
  have there := FileNode.descend?_insert_self (.file text.toUTF8) before.top
    (directory.reverse ++ [name])
  have known : (Entries.get? later name).isSome = true := by
    rw [FileNode.descend?_append, stillDirectory, Option.bind_some,
      FileNode.descend?_directory] at there
    obtain ⟨child, isChild, -⟩ := Option.bind_eq_some_iff.mp there
    rw [isChild]
    rfl
  have located : locate? { before with
      top := FileNode.insert (.file text.toUTF8) (directory.reverse ++ [name]) before.top } path =
        some (directory.reverse ++ [name]) := by
    rw [locate?, if_neg (by rwa [beq_iff_eq])]
    show (follow? _ (before.startOf path).1 (before.startOf path).2).map List.reverse = _
    rw [parts, follow?_append, follow?_of_namesKept kept followed, Option.bind_some, follow?,
      stillDirectory]
    simp only [plain, notUp, known, if_true, Bool.false_eq_true, if_false, follow?,
      Option.map_some, List.reverse_cons]
  rw [get?, located]
  exact there

theorem fromUTF8?_toUTF8 (text : String) : String.fromUTF8? text.toUTF8 = some text :=
  dif_pos text.isValidUTF8

/-- The text that was written to a path is read from it. -/
theorem readText?_of_write? {before after : FileSystem} {path text : String}
    (written : before.write? path text = some after) : after.readText? path = some text := by
  rw [readText?, get?_of_write? written]
  exact fromUTF8?_toUTF8 text

end FileSystem

end DocComments
