/-
This file proves that JSON texts that were written are read as the data they were written for.

The rules are those of the grammar, one for each kind of datum, and every one says that the reader
takes exactly the text of the datum off whatever it stands before. White space may stand before
items and fields, before values and before closing brackets, so the rules serve the compact and
the indented layout alike. Numbers and moments are left out, as the writer has no text for a
fraction or a moment.
-/

import DocComments.Datum.JsonReader
import DocComments.Datum.JsonWriter
import Mathlib.Data.List.DropRight

namespace DocComments

/-- A datum without numbers and moments. -/
inductive Datum.Plain : Datum → Prop
  | null : Plain .null
  | boolean (value : Bool) : Plain (.boolean value)
  | text (value : String) : Plain (.text value)
  | array {items : List Datum} (each : ∀ item ∈ items, Plain item) : Plain (.array items)
  | table {fields : List (String × Datum)} (each : ∀ field ∈ fields, Plain field.2) :
    Plain (.table fields)

namespace Json

/-! ### Quoted texts -/

theorem fourDigits?_hexDigit {code : Nat} (small : code < 0x20) :
    fourDigits? '0' '0' (hexDigit (code / 16)) (hexDigit (code % 16)) = some code := by
  have all : ∀ code < 0x20,
      fourDigits? '0' '0' (hexDigit (code / 16)) (hexDigit (code % 16)) = some code := by
    decide
  exact all code small

/-- A character below the space is read from its number. -/
theorem readQuoted?_control {c : Char} (small : c.toNat < 0x20) (rest : List Char) :
    readQuoted? ('\\' :: 'u' :: '0' :: '0' :: hexDigit (c.toNat / 16) ::
        hexDigit (c.toNat % 16) :: rest) =
      (readQuoted? rest).map fun (text, rest) => (c :: text, rest) := by
  have noSurrogate : ¬ (Nat.ble 0xD800 c.toNat && Nat.blt c.toNat 0xDC00) = true := by
    rw [Bool.and_eq_true, Nat.ble_eq, Nat.blt_eq]
    omega
  have isCharacter : Text.character? c.toNat = some c := by
    have low : Nat.blt c.toNat 0xD800 = true := Nat.blt_eq.mpr (by omega)
    rw [Text.character?, low, Bool.true_or, if_pos rfl, Char.ofNat_toNat]
  rw [readQuoted?, fourDigits?_hexDigit small]
  simp only [if_neg noSurrogate, isCharacter]

/-- A character that needs no escape is read as it stands. -/
theorem readQuoted?_ordinary {c : Char} (noQuote : c ≠ '"') (noBackslash : c ≠ '\\')
    (large : ¬ c.toNat < 0x20) (rest : List Char) :
    readQuoted? (c :: rest) = (readQuoted? rest).map fun (text, rest) => (c :: text, rest) := by
  have ordinary : ¬ (Nat.blt c.toNat 0x20 || c == '\\') = true := by
    rw [Bool.or_eq_true, Nat.blt_eq, beq_iff_eq]
    exact not_or.mpr ⟨large, noBackslash⟩
  rw [readQuoted?, if_neg ordinary]
  · exact noQuote
  · exact fun _ _ _ _ _ isBackslash => absurd isBackslash noBackslash
  · exact fun _ _ isBackslash => absurd isBackslash noBackslash

/-- A character in a quoted text is read as it is meant. -/
theorem readQuoted?_escape (c : Char) (rest : List Char) :
    readQuoted? (escape c ++ rest) =
      (readQuoted? rest).map fun (text, rest) => (c :: text, rest) := by
  have eq_ofNat {code : Nat} (same : (c.toNat == code) = true) : c = Char.ofNat code := by
    rw [← beq_iff_eq.mp same, Char.ofNat_toNat]
  unfold escape
  split_ifs with quote backslash lineFeed carriageReturn tab backspace formFeed small
  · rw [beq_iff_eq.mp quote]
    rfl
  · rw [beq_iff_eq.mp backslash]
    rfl
  · rw [beq_iff_eq.mp lineFeed]
    rfl
  · rw [beq_iff_eq.mp carriageReturn]
    rfl
  · rw [beq_iff_eq.mp tab]
    rfl
  · rw [eq_ofNat backspace]
    rfl
  · rw [eq_ofNat formFeed]
    rfl
  · exact readQuoted?_control (Nat.blt_eq.mp small) rest
  · exact readQuoted?_ordinary (fun same => quote (beq_iff_eq.mpr same))
      (fun same => backslash (beq_iff_eq.mpr same)) (fun low => small (Nat.blt_eq.mpr low)) rest

theorem readQuoted?_flatMap_escape (text rest : List Char) :
    readQuoted? (text.flatMap escape ++ '"' :: rest) = some (text, rest) := by
  induction text with
  | nil => rfl
  | cons c text inductionHypothesis =>
    rw [List.flatMap_cons, List.append_assoc, readQuoted?_escape, inductionHypothesis]
    rfl

theorem toList_quote (value : String) :
    (quote value).toList = '"' :: (value.toList.flatMap escape ++ ['"']) := by
  simp [quote]

/-! ### The rules of the grammar -/

/-- A reader takes a text off whatever it stands before, given a bound that is not below the length
of the text. -/
def Takes {Value : Type} (reader : Nat → List Char → Option (Value × List Char))
    (text : List Char) (value : Value) : Prop :=
  ∀ bound rest, text.length ≤ bound → reader bound (text ++ rest) = some (value, rest)

/-- A text spells a datum when the reader takes it for the datum, and it does not start with white
space. -/
structure Spells (text : List Char) (datum : Datum) : Prop where
  start : ∃ c rest, text = c :: rest ∧ isSpace c = false
  taken : Takes readValue? text datum

/-- White space, or nothing. -/
def IsGap (gap : List Char) : Prop :=
  ∀ c ∈ gap, isSpace c = true

theorem IsGap.dropWhile {gap : List Char} (isGap : IsGap gap) (text : List Char) :
    (gap ++ text).dropWhile isSpace = text.dropWhile isSpace :=
  List.dropWhile_append_of_pos isGap

theorem Spells.dropWhile {text : List Char} {datum : Datum} (spells : Spells text datum)
    (rest : List Char) : (text ++ rest).dropWhile isSpace = text ++ rest := by
  obtain ⟨c, more, rfl, noSpace⟩ := spells.start
  rw [List.cons_append, List.dropWhile_cons_of_neg (by rw [noSpace]; exact Bool.false_ne_true)]

/-- A text is taken off if its first character leads the reader on to the rest of it. -/
theorem Spells.of_cons {c : Char} {text : List Char} {datum : Datum}
    (noSpace : isSpace c = false)
    (taken : ∀ bound rest, text.length ≤ bound →
      readValue? (bound + 1) (c :: (text ++ rest)) = some (datum, rest)) :
    Spells (c :: text) datum := by
  refine ⟨⟨c, text, rfl, noSpace⟩, fun bound rest enough => ?_⟩
  cases bound with
  | zero => cases enough
  | succ bound => exact taken bound rest (Nat.le_of_succ_le_succ enough)

theorem spells_null : Spells "null".toList .null :=
  .of_cons rfl fun _ _ _ => rfl

theorem spells_boolean (value : Bool) :
    Spells (if value then "true" else "false").toList (.boolean value) := by
  cases value with
  | true => exact .of_cons rfl fun _ _ _ => rfl
  | false => exact .of_cons rfl fun _ _ _ => rfl

theorem spells_text (value : String) : Spells (quote value).toList (.text value) := by
  rw [toList_quote]
  refine .of_cons rfl fun bound rest _ => ?_
  rw [List.append_assoc, List.singleton_append]
  show (readQuoted? _).map _ = _
  rw [readQuoted?_flatMap_escape]
  simp

/-! ### Items between brackets -/

/-- What a reader of items does with the text of one of them: after a comma it goes on to the other
items, and after the closing bracket it stops. -/
structure ReadsItem {Item : Type} (reader : Nat → List Char → Option (List Item × List Char))
    (closing : Char) (text : List Char) (item : Item) : Prop where
  more : ∀ bound rest, text.length ≤ bound →
    reader (bound + 1) (text ++ ',' :: rest) =
      (reader bound rest).map fun (items, rest) => (item :: items, rest)
  last : ∀ bound gap rest, text.length ≤ bound → IsGap gap →
    reader (bound + 1) (text ++ (gap ++ closing :: rest)) = some ([item], rest)

/-- Items with commas between them are taken up to the closing bracket. -/
theorem takes_intercalate {Item : Type}
    {reader : Nat → List Char → Option (List Item × List Char)} {closing : Char}
    {write : Item → List Char} {gap : List Char} (isGap : IsGap gap) {items : List Item}
    (nonempty : items ≠ [])
    (each : ∀ item ∈ items, ReadsItem reader closing (write item) item) :
    Takes reader ([','].intercalate (items.map write) ++ (gap ++ [closing])) items := by
  induction items with
  | nil => exact absurd rfl nonempty
  | cons item items inductionHypothesis =>
    have reads := each item List.mem_cons_self
    intro bound rest enough
    -- What follows the item decides: the bracket after the last one, a comma after all others.
    cases items with
    | nil =>
      rw [List.map_singleton, List.intercalate_singleton] at enough ⊢
      simp only [List.length_append, List.length_singleton] at enough
      obtain ⟨bound, rfl⟩ := Nat.exists_eq_succ_of_ne_zero (show bound ≠ 0 by omega)
      rw [List.append_assoc, List.append_assoc, List.singleton_append]
      exact reads.last bound gap rest (by omega) isGap
    | cons other items =>
      have taken := inductionHypothesis (List.cons_ne_nil _ _) fun item member =>
        each item (List.mem_cons_of_mem _ member)
      have joined : [','].intercalate ((item :: other :: items).map write) ++ (gap ++ [closing]) =
          write item ++ ',' ::
            ([','].intercalate ((other :: items).map write) ++ (gap ++ [closing])) := by
        simp [List.intercalate_cons_cons]
      rw [joined] at enough ⊢
      rw [List.length_append, List.length_cons] at enough
      obtain ⟨bound, rfl⟩ := Nat.exists_eq_succ_of_ne_zero (show bound ≠ 0 by omega)
      rw [List.append_assoc, List.cons_append, reads.more bound _ (by omega),
        taken bound rest (by omega)]
      rfl

/-- An item may have white space before it. -/
theorem readsItem_value {text before : List Char} {datum : Datum} (spells : Spells text datum)
    (isGap : IsGap before) : ReadsItem readItems? ']' (before ++ text) datum := by
  have value {bound : Nat} (rest : List Char) (enough : (before ++ text).length ≤ bound) :
      readValue? bound ((before ++ text ++ rest).dropWhile isSpace) = some (datum, rest) := by
    rw [List.length_append] at enough
    rw [List.append_assoc, isGap.dropWhile, spells.dropWhile, spells.taken bound rest (by omega)]
  refine ⟨fun bound rest enough => ?_, fun bound gap rest enough afterGap => ?_⟩
  · rw [readItems?, value _ enough]
    rfl
  · rw [readItems?, value _ enough]
    simp only [afterGap.dropWhile]
    rfl

/-- A field may have white space before its name and before its value. -/
theorem readsItem_field {text before between : List Char} {datum : Datum}
    (spells : Spells text datum) (name : String) (isGap : IsGap before)
    (alsoGap : IsGap between) :
    ReadsItem readFields? '}' (before ++ ((quote name).toList ++ ':' :: (between ++ text)))
      (name, datum) := by
  have start (rest : List Char) :
      (before ++ ((quote name).toList ++ ':' :: (between ++ text)) ++ rest).dropWhile isSpace =
        '"' :: (name.toList.flatMap escape ++ '"' :: ':' :: (between ++ (text ++ rest))) := by
    rw [List.append_assoc, isGap.dropWhile, toList_quote]
    simp [isSpace]
  have value {bound : Nat} (rest : List Char)
      (enough : (before ++ ((quote name).toList ++ ':' :: (between ++ text))).length ≤ bound) :
      readValue? bound ((between ++ (text ++ rest)).dropWhile isSpace) = some (datum, rest) := by
    simp only [List.length_append, List.length_cons] at enough
    rw [alsoGap.dropWhile, spells.dropWhile, spells.taken bound rest (by omega)]
  have colon (rest : List Char) : (':' :: rest).dropWhile isSpace = ':' :: rest := rfl
  refine ⟨fun bound rest enough => ?_, fun bound gap rest enough afterGap => ?_⟩
  · rw [readFields?, start]
    simp only [readQuoted?_flatMap_escape, colon, value _ enough, String.ofList_toList]
    rfl
  · rw [readFields?, start]
    simp only [readQuoted?_flatMap_escape, colon, value _ enough, afterGap.dropWhile,
      String.ofList_toList]
    rfl

/-! ### Arrays and tables -/

/-- White space before the items does not matter. -/
theorem readItems?_dropWhile (bound : Nat) (text : List Char) :
    readItems? bound (text.dropWhile isSpace) = readItems? bound text := by
  cases bound with
  | zero => rfl
  | succ bound => rw [readItems?, readItems?, List.dropWhile_idempotent]

/-- White space before the fields does not matter. -/
theorem readFields?_dropWhile (bound : Nat) (text : List Char) :
    readFields? bound (text.dropWhile isSpace) = readFields? bound text := by
  cases bound with
  | zero => rfl
  | succ bound => rw [readFields?, readFields?, List.dropWhile_idempotent]

/-- There are no items where the closing bracket stands. -/
theorem readItems?_closing (bound : Nat) (rest : List Char) :
    readItems? bound (']' :: rest) = none := by
  cases bound with
  | zero => rfl
  | succ bound =>
    have noValue : readValue? bound (']' :: rest) = none := by
      cases bound <;> rfl
    rw [readItems?, List.dropWhile_cons_of_neg (by decide), noValue]

/-- There are no fields where the closing brace stands. -/
theorem readFields?_closing (bound : Nat) (rest : List Char) :
    readFields? bound ('}' :: rest) = none := by
  cases bound <;> rfl

theorem readValue?_array {bound : Nat} {text rest : List Char} {items : List Datum}
    (taken : readItems? bound text = some (items, rest)) :
    readValue? (bound + 1) ('[' :: text) = some (.array items, rest) := by
  rw [← readItems?_dropWhile] at taken
  rw [readValue?]
  -- The reader looks for an empty array first; but then there were no items to read.
  split
  · rename_i tail closing
    rw [closing, readItems?_closing] at taken
    cases taken
  · rw [taken]
    rfl

theorem readValue?_table {bound : Nat} {text rest : List Char} {fields : List (String × Datum)}
    (taken : readFields? bound text = some (fields, rest)) :
    readValue? (bound + 1) ('{' :: text) = some (.table fields, rest) := by
  rw [← readFields?_dropWhile] at taken
  rw [readValue?]
  split
  · rename_i tail closing
    rw [closing, readFields?_closing] at taken
    cases taken
  · rw [taken]
    rfl

theorem spells_array (write : Datum → List Char) {before after : List Char}
    (isGap : IsGap before) (afterGap : IsGap after) {items : List Datum} (nonempty : items ≠ [])
    (each : ∀ item ∈ items, Spells (write item) item) :
    Spells ('[' :: ([','].intercalate (items.map fun item => before ++ write item) ++
      (after ++ [']']))) (.array items) := by
  refine .of_cons rfl fun bound rest enough => ?_
  have taken := takes_intercalate afterGap nonempty fun item member =>
    readsItem_value (each item member) isGap
  exact readValue?_array (taken bound rest enough)

theorem spells_table (write : Datum → List Char) {before between after : List Char}
    (isGap : IsGap before) (alsoGap : IsGap between) (afterGap : IsGap after)
    {fields : List (String × Datum)} (nonempty : fields ≠ [])
    (each : ∀ field ∈ fields, Spells (write field.2) field.2) :
    Spells ('{' :: ([','].intercalate (fields.map fun field =>
      before ++ ((quote field.1).toList ++ ':' :: (between ++ write field.2))) ++
        (after ++ ['}']))) (.table fields) := by
  refine .of_cons rfl fun bound rest enough => ?_
  have taken := takes_intercalate afterGap nonempty fun field member =>
    readsItem_field (each field member) field.1 isGap alsoGap
  exact readValue?_table (taken bound rest enough)

/-! ### The two layouts -/

theorem isGap_nil : IsGap [] :=
  nofun

theorem isGap_space : IsGap [' '] := by
  intro c member
  rw [List.mem_singleton.mp member]
  rfl

theorem isGap_newLine (depth : Nat) : IsGap (newLine depth).toList := by
  intro c member
  rw [newLine, String.toList_append] at member
  rcases List.mem_append.mp member with lineFeed | space
  · rw [List.mem_singleton.mp lineFeed]
    rfl
  · rw [String.toList_ofList] at space
    rw [List.eq_of_mem_replicate space]
    rfl

theorem compactItems_eq (items : List Datum) : compactItems items = items.map compact := by
  induction items with
  | nil => rfl
  | cons item items inductionHypothesis =>
    rw [compactItems, inductionHypothesis, List.map_cons]

theorem compactFields_eq (fields : List (String × Datum)) :
    compactFields fields = fields.map fun field => quote field.1 ++ ":" ++ compact field.2 := by
  induction fields with
  | nil => rfl
  | cons field fields inductionHypothesis =>
    rw [compactFields, inductionHypothesis, List.map_cons]

theorem indentedItems_eq (depth : Nat) (items : List Datum) :
    indentedItems depth items = items.map fun item => newLine depth ++ indented depth item := by
  induction items with
  | nil => rfl
  | cons item items inductionHypothesis =>
    rw [indentedItems, inductionHypothesis, List.map_cons]

theorem indentedFields_eq (depth : Nat) (fields : List (String × Datum)) :
    indentedFields depth fields = fields.map fun field =>
      newLine depth ++ quote field.1 ++ ": " ++ indented depth field.2 := by
  induction fields with
  | nil => rfl
  | cons field fields inductionHypothesis =>
    rw [indentedFields, inductionHypothesis, List.map_cons]

theorem toList_compact_array (items : List Datum) :
    (compact (.array items)).toList =
      '[' :: ([','].intercalate (items.map fun item => [] ++ (compact item).toList) ++
        ([] ++ [']'])) := by
  simp [compact, compactItems_eq, String.toList_intercalate, Function.comp_def]

theorem toList_compact_table (fields : List (String × Datum)) :
    (compact (.table fields)).toList =
      '{' :: ([','].intercalate (fields.map fun field =>
        [] ++ ((quote field.1).toList ++ ':' :: ([] ++ (compact field.2).toList))) ++
          ([] ++ ['}'])) := by
  simp [compact, compactFields_eq, String.toList_intercalate, Function.comp_def]

theorem toList_indented_array (depth : Nat) {items : List Datum} (nonempty : items ≠ []) :
    (indented depth (.array items)).toList =
      '[' :: ([','].intercalate (items.map fun item =>
        (newLine (depth + 1)).toList ++ (indented (depth + 1) item).toList) ++
          ((newLine depth).toList ++ [']'])) := by
  cases items with
  | nil => exact absurd rfl nonempty
  | cons item items =>
    rw [indented, indentedItems_eq]
    simp only [String.toList_append, String.toList_intercalate, List.map_map, Function.comp_def,
      List.append_assoc]
    rfl

theorem toList_indented_table (depth : Nat) {fields : List (String × Datum)}
    (nonempty : fields ≠ []) :
    (indented depth (.table fields)).toList =
      '{' :: ([','].intercalate (fields.map fun field =>
        (newLine (depth + 1)).toList ++ ((quote field.1).toList ++
          ':' :: ([' '] ++ (indented (depth + 1) field.2).toList))) ++
            ((newLine depth).toList ++ ['}'])) := by
  cases fields with
  | nil => exact absurd rfl nonempty
  | cons field fields =>
    rw [indented, indentedFields_eq]
    simp only [String.toList_append, String.toList_intercalate, List.map_map, Function.comp_def,
      List.append_assoc]
    rfl

theorem spells_emptyArray : Spells "[]".toList (.array []) :=
  .of_cons rfl fun _ _ _ => rfl

theorem spells_emptyTable : Spells "\x7b\x7d".toList (.table []) :=
  .of_cons rfl fun _ _ _ => rfl

/-- The layout without white space spells the datum. -/
theorem spells_compact {datum : Datum} (plain : datum.Plain) :
    Spells (compact datum).toList datum := by
  induction plain with
  | null => exact spells_null
  | boolean value => exact spells_boolean value
  | text value => exact spells_text value
  | @array items _ inductionHypothesis =>
    by_cases empty : items = []
    · subst empty
      exact spells_emptyArray
    · rw [toList_compact_array]
      exact spells_array (fun item => (compact item).toList) isGap_nil isGap_nil empty
        inductionHypothesis
  | @table fields _ inductionHypothesis =>
    by_cases empty : fields = []
    · subst empty
      exact spells_emptyTable
    · rw [toList_compact_table]
      exact spells_table (fun datum => (compact datum).toList) isGap_nil isGap_nil isGap_nil empty
        inductionHypothesis

/-- The indented layout spells the datum at every depth. -/
theorem spells_indented {datum : Datum} (plain : datum.Plain) (depth : Nat) :
    Spells (indented depth datum).toList datum := by
  induction plain generalizing depth with
  | null => exact spells_null
  | boolean value => exact spells_boolean value
  | text value => exact spells_text value
  | @array items _ inductionHypothesis =>
    by_cases empty : items = []
    · subst empty
      exact spells_emptyArray
    · rw [toList_indented_array depth empty]
      exact spells_array (fun item => (indented (depth + 1) item).toList) (isGap_newLine _)
        (isGap_newLine _) empty fun item member => inductionHypothesis item member (depth + 1)
  | @table fields _ inductionHypothesis =>
    by_cases empty : fields = []
    · subst empty
      exact spells_emptyTable
    · rw [toList_indented_table depth empty]
      exact spells_table (fun datum => (indented (depth + 1) datum).toList) (isGap_newLine _)
        isGap_space (isGap_newLine _) empty fun field member =>
          inductionHypothesis field member (depth + 1)

theorem read?_of_spells {text : List Char} {datum : Datum} (spells : Spells text datum) :
    read? text = some datum := by
  have taken := spells.taken (2 * text.length + 2) [] (by omega)
  have start := spells.dropWhile []
  rw [List.append_nil] at taken start
  rw [read?, start, taken]
  rfl

end Json

end DocComments
