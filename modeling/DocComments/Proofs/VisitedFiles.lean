/-
This file proves which files the walk below a directory comes to, and in which order.

A file below a directory is given by the names that lead to it. The walk goes depth first and takes
the entries of a directory in the order of the bytes of their names, files and directories
together. So of two files the one comes first whose names come first where the names part: the
order of the walk is the lexicographic order of the names, and it does not have to be said by way
of the walk. A file is wanted if its own name is kept and no directory on the way to it is skipped.
The walk lists exactly the wanted files, in that order and therefore each of them once. Only one
list can be so, and this is why the order in which a directory holds its entries plays no part.
-/

import DocComments.Files.Discovery
import DocComments.Proofs.ByteOrder
import DocComments.Proofs.Segments
import DocComments.Proofs.StoredFiles

namespace DocComments

/-! ### Directories -/

namespace FileNode

/-- A name that an entry of a directory can have. -/
structure EntryName (name : String) : Prop where
  nonempty : name ≠ ""
  single : '/' ∉ name.toList

instance (name : String) : Decidable (EntryName name) :=
  decidable_of_iff (name ≠ "" ∧ '/' ∉ name.toList)
    ⟨fun ⟨nonempty, single⟩ => ⟨nonempty, single⟩, fun proper => ⟨proper.nonempty, proper.single⟩⟩

/-- A node is proper if in every directory the entries have different names, and such as entries can
have. -/
inductive Proper : FileNode → Prop where
  | file (bytes : ByteArray) : Proper (.file bytes)
  | directory {entries : List (String × FileNode)} (distinct : (Entries.keys entries).Nodup)
      (named : ∀ name ∈ Entries.keys entries, EntryName name)
      (below : ∀ entry ∈ entries, Proper entry.2) : Proper (.directory entries)

theorem Proper.of_descend? {node inner : FileNode} (proper : node.Proper) {names : List String}
    (found : node.descend? names = some inner) :
    inner.Proper ∧ ∀ name ∈ names, EntryName name := by
  induction proper generalizing names with
  | file bytes =>
    obtain rfl := eq_nil_of_descend?_file found
    cases found
    exact ⟨.file bytes, fun _ member => absurd member List.not_mem_nil⟩
  | @directory entries distinct named below inductionHypothesis =>
    cases names with
    | nil =>
      cases found
      exact ⟨.directory distinct named below, fun _ member => absurd member List.not_mem_nil⟩
    | cons name names =>
      rw [descend?_directory] at found
      obtain ⟨child, isChild, found⟩ := Option.bind_eq_some_iff.mp found
      obtain ⟨properInner, properNames⟩ :=
        inductionHypothesis (name, child) (Entries.mem_of_get? isChild) found
      exact ⟨properInner,
        List.forall_mem_cons.mpr ⟨named name (Entries.mem_keys_of_get? isChild), properNames⟩⟩

/-- Names lead from a node to a wanted file: its name is kept, and no directory on the way has a
name that is skipped. -/
structure Wanted (keeps skips : String → Prop) (node : FileNode) (names : List String) : Prop where
  isFile : ∃ bytes, node.descend? names = some (.file bytes)
  kept : ∃ name, names.getLast? = some name ∧ keeps name
  entered : ∀ directory ∈ names.dropLast, ¬ skips directory

theorem not_wanted_file {keeps skips : String → Prop} (bytes : ByteArray) (names : List String) :
    ¬ Wanted keeps skips (.file bytes) names := by
  rintro ⟨⟨_, found⟩, ⟨name, last, -⟩, -⟩
  obtain rfl := eq_nil_of_descend?_file found
  cases last

theorem not_wanted_nil {keeps skips : String → Prop} (node : FileNode) :
    ¬ Wanted keeps skips node [] := by
  rintro ⟨-, ⟨name, last, -⟩, -⟩
  cases last

/-- What is wanted below an entry: a file itself, and of a directory that is entered what is wanted
below it. -/
def WantedBelow (keeps skips : String → Prop) (name : String) : FileNode → List String → Prop
  | .file _, rest => rest = [] ∧ keeps name
  | .directory entries, rest => ¬ skips name ∧ Wanted keeps skips (.directory entries) rest

theorem wanted_cons_iff {keeps skips : String → Prop} {entries : List (String × FileNode)}
    {name : String} {rest : List String} :
    Wanted keeps skips (.directory entries) (name :: rest) ↔
      ∃ node, Entries.get? entries name = some node ∧ WantedBelow keeps skips name node rest := by
  constructor
  · rintro ⟨⟨bytes, found⟩, ⟨last, isLast, kept⟩, entered⟩
    rw [descend?_directory] at found
    obtain ⟨node, isEntry, found⟩ := Option.bind_eq_some_iff.mp found
    refine ⟨node, isEntry, ?_⟩
    cases node with
    | file bytes =>
      obtain rfl := eq_nil_of_descend?_file found
      cases isLast
      exact ⟨rfl, kept⟩
    | directory inner =>
      cases rest with
      | nil => cases found
      | cons next rest =>
        rw [List.dropLast_cons_cons, List.forall_mem_cons] at entered
        rw [List.getLast?_cons_cons] at isLast
        exact ⟨entered.1, ⟨bytes, found⟩, ⟨last, isLast, kept⟩, entered.2⟩
  · rintro ⟨node, isEntry, wanted⟩
    cases node with
    | file bytes =>
      obtain ⟨rfl, kept⟩ := wanted
      refine ⟨⟨bytes, ?_⟩, ⟨name, rfl, kept⟩, fun _ member => absurd member List.not_mem_nil⟩
      rw [descend?_directory, isEntry]
      rfl
    | directory inner =>
      obtain ⟨notSkipped, ⟨bytes, found⟩, ⟨last, isLast, kept⟩, entered⟩ := wanted
      cases rest with
      | nil => cases isLast
      | cons next rest =>
        refine ⟨⟨bytes, ?_⟩, ⟨last, ?_, kept⟩, ?_⟩
        · rwa [descend?_directory, isEntry]
        · rwa [List.getLast?_cons_cons]
        · rw [List.dropLast_cons_cons, List.forall_mem_cons]
          exact ⟨notSkipped, entered⟩

end FileNode

/-! ### Paths below a directory -/

/-- The path to which names lead from a path. -/
def pathFrom (path : String) (names : List String) : String :=
  names.foldl joinPath path

/-- What stands before the first name of a path below this one. -/
def pathStem (path : String) : List Char :=
  if path == "" || path.toList.getLast? == some '/' then path.toList else path.toList ++ ['/']

theorem toList_joinPath (path name : String) :
    (joinPath path name).toList = pathStem path ++ name.toList := by
  rw [joinPath, pathStem]
  split
  · exact String.toList_append
  · rw [String.toList_append, String.toList_append]
    rfl

theorem pathStem_joinPath (path : String) {name : String} (proper : FileNode.EntryName name) :
    pathStem (joinPath path name) = pathStem path ++ name.toList ++ ['/'] := by
  have nonempty : name.toList ≠ [] := mt String.toList_eq_nil_iff.mp proper.nonempty
  have last : (pathStem path ++ name.toList).getLast? ≠ some '/' := by
    rw [List.getLast?_append_of_ne_nil _ nonempty]
    exact fun isSlash => proper.single (List.mem_of_getLast? isSlash)
  have notEmpty : joinPath path name ≠ "" := by
    refine mt String.toList_eq_nil_iff.mpr ?_
    rw [toList_joinPath]
    exact List.append_ne_nil_of_right_ne_nil _ nonempty
  rw [pathStem, toList_joinPath, if_neg]
  rw [Bool.or_eq_true, beq_iff_eq, beq_iff_eq]
  exact not_or.mpr ⟨notEmpty, last⟩

theorem toList_pathFrom (path : String) {names : List String} (nonempty : names ≠ [])
    (proper : ∀ name ∈ names, FileNode.EntryName name) :
    (pathFrom path names).toList =
      pathStem path ++ Text.joinWith ['/'] (names.map String.toList) := by
  induction names generalizing path with
  | nil => exact absurd rfl nonempty
  | cons name rest inductionHypothesis =>
    obtain ⟨properName, properRest⟩ := List.forall_mem_cons.mp proper
    cases rest with
    | nil => exact toList_joinPath path name
    | cons next rest =>
      have deeper := inductionHypothesis (joinPath path name) (List.cons_ne_nil _ _) properRest
      rw [pathStem_joinPath path properName] at deeper
      rw [pathFrom, List.foldl_cons, ← pathFrom, deeper]
      simp only [List.map_cons, Text.joinWith, List.append_assoc]

theorem Text.splitOn_joinWith {separator : Char} {pieces : List (List Char)}
    (nonempty : pieces ≠ []) (free : ∀ piece ∈ pieces, separator ∉ piece) :
    splitOn separator (joinWith [separator] pieces) = pieces := by
  rw [splitOn_eq, joinWith_eq, List.splitOn_intercalate separator free nonempty]

/-- Different names lead to different paths. -/
theorem pathFrom_injective {path : String} {first second : List String} (nonempty : first ≠ [])
    (otherNonempty : second ≠ []) (proper : ∀ name ∈ first, FileNode.EntryName name)
    (otherProper : ∀ name ∈ second, FileNode.EntryName name)
    (same : pathFrom path first = pathFrom path second) : first = second := by
  have pieces {names : List String} (nonempty : names ≠ [])
      (proper : ∀ name ∈ names, FileNode.EntryName name) :
      Text.splitOn '/' (Text.joinWith ['/'] (names.map String.toList)) =
        names.map String.toList := by
    refine Text.splitOn_joinWith (by simpa using nonempty) fun piece member => ?_
    obtain ⟨name, inside, rfl⟩ := List.mem_map.mp member
    exact (proper name inside).single
  have joined := congrArg String.toList same
  rw [toList_pathFrom path nonempty proper,
    toList_pathFrom path otherNonempty otherProper] at joined
  have cut := congrArg (Text.splitOn '/') (List.append_cancel_left joined)
  rw [pieces nonempty proper, pieces otherNonempty otherProper] at cut
  exact List.map_injective_iff.mpr (fun _ _ => String.toList_inj.mp) cut

/-! ### The order of the walk -/

/-- Names that a walk comes to before others: where they part, the entry comes first whose name
stands first in the order of bytes. -/
def VisitedBefore (first second : List String) : Prop :=
  List.Lex Text.BytesBefore first second

theorem VisitedBefore.asymm {first second : List String} (before : VisitedBefore first second) :
    ¬ VisitedBefore second first :=
  List.lex_asymm (fun earlier => earlier.asymm) before

/-- The files are those at the wanted names below a path, in the order of the walk. -/
def ListsInOrder (wanted : List String → Prop) (path : String) (files : List String) : Prop :=
  ∃ visited : List (List String), files = visited.map (pathFrom path) ∧
    visited.Pairwise VisitedBefore ∧ ∀ names, names ∈ visited ↔ wanted names

namespace ListsInOrder

variable {wanted others : List String → Prop} {path : String} {files more : List String}

theorem congr (lists : ListsInOrder wanted path files)
    (same : ∀ names, wanted names ↔ others names) : ListsInOrder others path files := by
  obtain ⟨visited, listed, ordered, exactly⟩ := lists
  exact ⟨visited, listed, ordered, fun names => (exactly names).trans (same names)⟩

theorem nil (nothing : ∀ names, ¬ wanted names) : ListsInOrder wanted path [] :=
  ⟨[], rfl, .nil, fun names => iff_of_false List.not_mem_nil (nothing names)⟩

theorem singleton (path name : String) :
    ListsInOrder (fun names => names = [name]) path [joinPath path name] :=
  ⟨[[name]], rfl, List.pairwise_singleton _ _, fun _ => List.mem_singleton⟩

/-- What is listed below an entry is listed below its directory under the name of the entry. -/
theorem below {name : String} (lists : ListsInOrder wanted (joinPath path name) files) :
    ListsInOrder (fun names => ∃ rest, names = name :: rest ∧ wanted rest) path files := by
  obtain ⟨visited, rfl, ordered, exactly⟩ := lists
  refine ⟨visited.map (name :: ·), ?_, ?_, fun names => ?_⟩
  · rw [List.map_map]
    rfl
  · rw [List.pairwise_map]
    exact ordered.imp .cons
  · simp only [List.mem_map, exactly]
    constructor
    · rintro ⟨rest, wantedRest, rfl⟩
      exact ⟨rest, rfl, wantedRest⟩
    · rintro ⟨rest, rfl, wantedRest⟩
      exact ⟨rest, wantedRest, rfl⟩

theorem append (lists : ListsInOrder wanted path files) (listsMore : ListsInOrder others path more)
    (apart : ∀ first second, wanted first → others second → VisitedBefore first second) :
    ListsInOrder (fun names => wanted names ∨ others names) path (files ++ more) := by
  obtain ⟨visited, rfl, ordered, exactly⟩ := lists
  obtain ⟨visitedMore, rfl, orderedMore, exactlyMore⟩ := listsMore
  refine ⟨visited ++ visitedMore, List.map_append.symm, ?_, fun names => ?_⟩
  · refine List.pairwise_append.mpr ⟨ordered, orderedMore, fun first member second memberMore => ?_⟩
    exact apart first second ((exactly first).mp member) ((exactlyMore second).mp memberMore)
  · rw [List.mem_append, exactly, exactlyMore]

/-- Only one list has the wanted files in the order of the walk. -/
theorem unique (lists : ListsInOrder wanted path files)
    (alsoLists : ListsInOrder wanted path more) : files = more := by
  obtain ⟨visited, rfl, ordered, exactly⟩ := lists
  obtain ⟨visitedAlso, rfl, orderedAlso, exactlyAlso⟩ := alsoLists
  have once {visited : List (List String)} (ordered : visited.Pairwise VisitedBefore) :
      visited.Nodup :=
    ordered.imp fun before same => (same ▸ before).asymm (same ▸ before)
  have reordered : visited.Perm visitedAlso :=
    (List.perm_ext_iff_of_nodup (once ordered) (once orderedAlso)).mpr fun names =>
      (exactly names).trans (exactlyAlso names).symm
  rw [reordered.eq_of_pairwise (fun _ _ _ _ before after => absurd after before.asymm) ordered
    orderedAlso]

/-- Where names that lead to wanted files are names of entries, no path is listed twice. -/
theorem nodup (lists : ListsInOrder wanted path files) (nonempty : ¬ wanted [])
    (proper : ∀ names, wanted names → ∀ name ∈ names, FileNode.EntryName name) : files.Nodup := by
  obtain ⟨visited, rfl, ordered, exactly⟩ := lists
  refine List.pairwise_map.mpr
    (ordered.imp_of_mem fun {first second} member otherMember before => ?_)
  rw [exactly] at member otherMember
  intro same
  have sameNames : first = second := pathFrom_injective (fun empty => nonempty (empty ▸ member))
    (fun empty => nonempty (empty ▸ otherMember)) (proper first member) (proper second otherMember)
    same
  subst sameNames
  exact before.asymm before

end ListsInOrder

/-! ### The walk -/

namespace FileFilter

/-- A filter decides by these properties of names. -/
structure Follows (filter : FileFilter) (keeps skips : String → Prop) : Prop where
  keeps : ∀ name, filter.keepsFile name.toList = true ↔ keeps name
  skips : ∀ name, filter.skipsDirectory name.toList = true ↔ skips name

/-- The kept files that an entry of a directory contributes. -/
def filesOfEntry (filter : FileFilter) (path : String) : String × FileNode → List String
  | (name, .file _) => if filter.keepsFile name.toList then [joinPath path name] else []
  | (name, .directory inner) =>
    if filter.skipsDirectory name.toList then []
    else filter.filesBelow (joinPath path name) (.directory inner)

theorem filesOfEntries_eq_map (filter : FileFilter) (path : String)
    (entries : List (String × FileNode)) :
    filter.filesOfEntries path entries =
      entries.map fun entry => (entry.1, filter.filesOfEntry path entry) := by
  induction entries with
  | nil => rw [filesOfEntries, List.map_nil]
  | cons entry entries inductionHypothesis =>
    obtain ⟨name, node⟩ := entry
    cases node with
    | file bytes => rw [filesOfEntries, inductionHypothesis, List.map_cons, filesOfEntry]
    | directory inner => rw [filesOfEntries, inductionHypothesis, List.map_cons, filesOfEntry]

/-- Whether an entry may be visited before another one, by their names. -/
def namedNotAfter (first second : String × FileNode) : Bool :=
  Text.notAfter first.1.toList second.1.toList

/-- A directory is walked by its entries in the order of their names. -/
theorem filesBelow_directory (filter : FileFilter) (path : String)
    (entries : List (String × FileNode)) :
    filter.filesBelow path (.directory entries) =
      (entries.mergeSort namedNotAfter).flatMap (filter.filesOfEntry path) := by
  have sorted : (entries.mergeSort namedNotAfter).map
      (fun entry => (entry.1, filter.filesOfEntry path entry)) =
        (entries.map fun entry =>
          (entry.1, filter.filesOfEntry path entry)).mergeSort entryNotAfter :=
    List.map_mergeSort fun _ _ _ _ => rfl
  rw [filesBelow, filesOfEntries_eq_map, ← sorted, List.flatMap_map]

theorem namedNotAfter_trans (first second third : String × FileNode)
    (before : namedNotAfter first second = true) (after : namedNotAfter second third = true) :
    namedNotAfter first third = true :=
  Text.notAfter_trans before after

theorem namedNotAfter_total (first second : String × FileNode) :
    (namedNotAfter first second || namedNotAfter second first) = true := by
  rw [Bool.or_eq_true]
  exact Text.notAfter_total first.1.toList second.1.toList

theorem pairwise_bytesBefore {entries : List (String × FileNode)}
    (distinct : (Entries.keys entries).Nodup) :
    (entries.mergeSort namedNotAfter).Pairwise fun first second =>
      Text.BytesBefore first.1 second.1 := by
  have sorted : (entries.mergeSort namedNotAfter).Pairwise fun first second =>
      namedNotAfter first second = true :=
    List.pairwise_mergeSort namedNotAfter_trans namedNotAfter_total entries
  have different : (entries.mergeSort namedNotAfter).Pairwise fun first second =>
      first.1 ≠ second.1 :=
    List.pairwise_map.mp
      (((List.mergeSort_perm entries namedNotAfter).map _).nodup_iff.mpr distinct)
  exact (sorted.and different).imp fun both => Text.bytesBefore_of_notAfter both.1 both.2

/-- Entries in the order of their names list one after the other what each of them lists. -/
theorem listsInOrder_flatMap {contributes : String × FileNode → List String}
    {wanted : String × FileNode → List String → Prop} {path : String}
    {entries : List (String × FileNode)}
    (ordered : entries.Pairwise fun first second => Text.BytesBefore first.1 second.1)
    (each : ∀ entry ∈ entries, ListsInOrder
      (fun names => ∃ rest, names = entry.1 :: rest ∧ wanted entry rest) path (contributes entry)) :
    ListsInOrder
      (fun names => ∃ entry ∈ entries, ∃ rest, names = entry.1 :: rest ∧ wanted entry rest)
      path (entries.flatMap contributes) := by
  induction entries with
  | nil => exact .nil (by simp)
  | cons entry entries inductionHypothesis =>
    obtain ⟨first, rest⟩ := List.pairwise_cons.mp ordered
    obtain ⟨own, others⟩ := List.forall_mem_cons.mp each
    rw [List.flatMap_cons]
    refine (own.append (inductionHypothesis rest others) ?_).congr fun names => by simp
    rintro _ _ ⟨_, rfl, -⟩ ⟨other, member, _, rfl, -⟩
    exact .rel (first other member)

variable {filter : FileFilter} {keeps skips : String → Prop}

/-- An entry lists what is wanted below it, if its node does. -/
theorem listsInOrder_filesOfEntry (follows : filter.Follows keeps skips) (name : String)
    {node : FileNode} (path : String)
    (below : ListsInOrder (node.Wanted keeps skips) (joinPath path name)
      (filter.filesBelow (joinPath path name) node)) :
    ListsInOrder (fun names => ∃ rest, names = name :: rest ∧
      node.WantedBelow keeps skips name rest) path (filter.filesOfEntry path (name, node)) := by
  cases node with
  | file bytes =>
    rw [filesOfEntry]
    by_cases kept : keeps name
    · rw [if_pos ((follows.keeps name).mpr kept)]
      refine (ListsInOrder.singleton path name).congr fun names => ?_
      simp [FileNode.WantedBelow, kept]
    · rw [if_neg (mt (follows.keeps name).mp kept)]
      exact .nil fun names => by simp [FileNode.WantedBelow, kept]
  | directory inner =>
    rw [filesOfEntry]
    by_cases skipped : skips name
    · rw [if_pos ((follows.skips name).mpr skipped)]
      exact .nil fun names => by simp [FileNode.WantedBelow, skipped]
    · rw [if_neg (mt (follows.skips name).mp skipped)]
      exact below.below.congr fun names => by simp [FileNode.WantedBelow, skipped]

/-- The walk below a proper node lists the wanted files in order. The induction is on the node: in a
directory it is known of every entry, whatever the path at which the entry is found. -/
theorem listsInOrder_filesBelow (follows : filter.Follows keeps skips) {node : FileNode}
    (proper : node.Proper) (path : String) :
    ListsInOrder (node.Wanted keeps skips) path (filter.filesBelow path node) := by
  induction proper generalizing path with
  | file bytes =>
    rw [filesBelow]
    exact .nil (FileNode.not_wanted_file bytes)
  | @directory entries distinct named below inductionHypothesis =>
    have listed : ListsInOrder (fun names => ∃ entry ∈ entries.mergeSort namedNotAfter,
        ∃ rest, names = entry.1 :: rest ∧ entry.2.WantedBelow keeps skips entry.1 rest) path
          ((entries.mergeSort namedNotAfter).flatMap (filter.filesOfEntry path)) := by
      refine listsInOrder_flatMap (pairwise_bytesBefore distinct) fun entry member => ?_
      exact listsInOrder_filesOfEntry follows entry.1 path
        (inductionHypothesis entry (List.mem_mergeSort.mp member) (joinPath path entry.1))
    rw [filesBelow_directory]
    refine listed.congr fun names => ?_
    cases names with
    | nil => exact iff_of_false (by simp) (FileNode.not_wanted_nil _)
    | cons name rest =>
      rw [FileNode.wanted_cons_iff]
      constructor
      · rintro ⟨⟨_, node⟩, member, _, same, wanted⟩
        obtain ⟨rfl, rfl⟩ := List.cons.inj same
        exact ⟨node, Entries.get?_of_mem distinct (List.mem_mergeSort.mp member), wanted⟩
      · rintro ⟨node, found, wanted⟩
        exact ⟨(name, node), List.mem_mergeSort.mpr (Entries.mem_of_get? found), rest, rfl, wanted⟩

end FileFilter

end DocComments
