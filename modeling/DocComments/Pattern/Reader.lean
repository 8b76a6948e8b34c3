/-
This file reads patterns.

A pattern is text in the usual regular expression dialect: literals and escapes, bracketed
sets with ranges, nesting and set operators, groups that may be named or uncounted, inline
flags, alternatives, and greedy or lazy repetition. Conditions that look around and references
back to a group are not part of it. Reading answers only whether a text is a pattern and what
it stands for; every fault gives `none`. Each round of the reader consumes a character, so the
length of the text bounds it.

Some texts of the dialect are refused: of the properties of characters only some are known by
name, and sets of Unicode characters cannot be narrowed to ASCII by a flag. Nothing limits how deep
groups may nest and how large a counted repetition may become.
-/

import DocComments.Pattern.Search
import DocComments.Text.Digits
import DocComments.Text.Pieces

namespace DocComments.PatternReader

/-- The flags in force at a place of a pattern. -/
structure Flags where
  ignoreCase : Bool
  multiLine : Bool
  dotAll : Bool
  swapGreed : Bool
  verbose : Bool
  carriageReturns : Bool

/-- No flag is in force at the start. -/
def Flags.initial : Flags :=
  ⟨false, false, false, false, false, false⟩

/-! ### Escapes -/

/-- What an escape stands for. -/
inductive Escape where
  | literal (c : Char)
  | set (chars : CharSet)
  | look (condition : Look)

/-- A code point in hexadecimal: in braces, or with exactly `width` digits. -/
def readHex? (width : Nat) : List Char → Option (Char × List Char)
  | '{' :: rest => do
    let (digits, rest) ← Text.splitFirst? '}' rest
    let code ← Text.hexNumber? digits
    let c ← Text.character? code
    return (c, rest)
  | text => do
    let digits := text.take width
    if digits.length == width then
      let code ← Text.hexNumber? digits
      let c ← Text.character? code
      return (c, text.drop width)
    else
      none

/-- The properties by name, in lower case and without separators. No other name is known: scripts,
cases of letters and finer kinds of marks, punctuation and symbols are not among them. -/
def propertyNames : List (String × CharSet) :=
  [("l", .property .letter), ("letter", .property .letter),
   ("m", .property .mark), ("mark", .property .mark), ("combiningmark", .property .mark),
   ("n", .property .number), ("number", .property .number),
   ("nd", .property .decimalDigit), ("decimalnumber", .property .decimalDigit),
   ("digit", .property .decimalDigit),
   ("nl", .property .letterNumber), ("letternumber", .property .letterNumber),
   ("no", .property .otherNumber), ("othernumber", .property .otherNumber),
   ("pc", .property .connector), ("connectorpunctuation", .property .connector),
   ("alphabetic", .property .alphabetic), ("alpha", .property .alphabetic),
   ("whitespace", .property .whiteSpace), ("wspace", .property .whiteSpace),
   ("space", .property .whiteSpace),
   ("any", .any), ("ascii", .range (Char.ofNat 0) (Char.ofNat 0x7F))]

/-- The set of a named property. Case and the separators space, underscore and hyphen do not
matter in a name. -/
def propertySet? (name : List Char) : Option CharSet :=
  let plain := (name.filter fun c => !(c == ' ' || c == '_' || c == '-')).map Char.toLower
  propertyNames.lookup (String.ofList plain)

/-- A named property: one letter, or a name in braces. -/
def readProperty? : List Char → Option (CharSet × List Char)
  | '{' :: rest => do
    let (name, rest) ← Text.splitFirst? '}' rest
    let set ← propertySet? name
    return (set, rest)
  | c :: rest => (propertySet? [c]).map fun set => (set, rest)
  | [] => none

/-- Whether a backslash makes the character stand for itself: ASCII, but no letter, no digit
and no angle bracket. -/
def isEscapable (c : Char) : Bool :=
  Nat.blt c.toNat 0x80 && !c.isAlphanum && c != '<' && c != '>'

/-- The conditions that are named in braces after the letter of a word boundary. -/
def boundaryNames : List (String × Look) :=
  [("start", .wordStart), ("end", .wordEnd), ("start-half", .wordStartHalf),
   ("end-half", .wordEndHalf)]

/-- A word boundary, which may be named in braces. Braces that hold something else belong to a
repetition. -/
def readBoundary? (rest : List Char) : Option (Escape × List Char) :=
  match rest with
  | '{' :: named =>
    match named with
    | c :: _ =>
      if c.isAlpha || c == '-' then do
        let (name, rest) ← Text.splitFirst? '}' named
        let condition ← boundaryNames.lookup (String.ofList name)
        return (.look condition, rest)
      else
        some (.look .wordBoundary, rest)
    | [] => some (.look .wordBoundary, rest)
  | _ => some (.look .wordBoundary, rest)

/-- What stands after a backslash. -/
def readEscape? (flags : Flags) : List Char → Option (Escape × List Char)
  | [] => none
  | c :: rest =>
    let property (negated : Bool) :=
      (readProperty? rest).map fun (set, rest) =>
        (Escape.set ((set.fold flags.ignoreCase).negate negated), rest)
    let charSet (set : CharSet) := some (Escape.set set, rest)
    let literal (c : Char) := some (Escape.literal c, rest)
    let look (condition : Look) := some (Escape.look condition, rest)
    match c with
    | 'x' => (readHex? 2 rest).map fun (c, rest) => (.literal c, rest)
    | 'u' => (readHex? 4 rest).map fun (c, rest) => (.literal c, rest)
    | 'U' => (readHex? 8 rest).map fun (c, rest) => (.literal c, rest)
    | 'p' => property false
    | 'P' => property true
    | 'd' => charSet (.property .decimalDigit)
    | 'D' => charSet (.complement (.property .decimalDigit))
    | 's' => charSet (.property .whiteSpace)
    | 'S' => charSet (.complement (.property .whiteSpace))
    | 'w' => charSet (.property .word)
    | 'W' => charSet (.complement (.property .word))
    | 'a' => literal (Char.ofNat 0x07)
    | 'f' => literal (Char.ofNat 0x0C)
    | 't' => literal '\t'
    | 'n' => literal '\n'
    | 'r' => literal '\r'
    | 'v' => literal (Char.ofNat 0x0B)
    | 'A' => look .textStart
    | 'z' => look .textEnd
    | 'b' => readBoundary? rest
    | 'B' => look .notWordBoundary
    | '<' => look .wordStart
    | '>' => look .wordEnd
    | c => if isEscapable c then literal c else none

/-! ### Bracketed sets -/

/-- The operators between the parts of a bracketed set. -/
inductive SetOperator where
  | intersection
  | difference
  | symmetricDifference

/-- The set that an operator makes of two sets. -/
def SetOperator.apply : SetOperator → CharSet → CharSet → CharSet
  | .intersection, first, second => .intersection first second
  | .difference, first, second => first.difference second
  | .symmetricDifference, first, second => first.symmetricDifference second

/-- Completes an operator with its right side. Both sides are closed under case first. -/
def applyPending (ignoreCase : Bool) (pending : Option (SetOperator × CharSet))
    (current : CharSet) : CharSet :=
  match pending with
  | none => current
  | some (operator, left) =>
    operator.apply (left.fold ignoreCase) (current.fold ignoreCase)

/-- The sets that have a name between colons. -/
def asciiClasses : List (String × CharSet) :=
  let digit := CharSet.range '0' '9'
  let lower := CharSet.range 'a' 'z'
  let upper := CharSet.range 'A' 'Z'
  let alpha := CharSet.union lower upper
  let alnum := CharSet.union alpha digit
  let printable := CharSet.range ' ' '~'
  let graph := CharSet.range '!' '~'
  [("alnum", alnum), ("alpha", alpha), ("ascii", .range (Char.ofNat 0) (Char.ofNat 0x7F)),
   ("blank", .union (.single ' ') (.single '\t')),
   ("cntrl", .union (.range (Char.ofNat 0) (Char.ofNat 0x1F)) (.single (Char.ofNat 0x7F))),
   ("digit", digit), ("graph", graph), ("lower", lower), ("print", printable),
   ("punct", graph.difference alnum),
   ("space", .union (.single ' ') (.range '\t' '\r')), ("upper", upper),
   ("word", .union alnum (.single '_')),
   ("xdigit", .union digit (.union (.range 'a' 'f') (.range 'A' 'F')))]

/-- A named set after its opening bracket, such as the rest of `[:alpha:]`. -/
def readAsciiClass? : List Char → Option (CharSet × List Char)
  | ':' :: rest => do
    let (negated, rest) := match rest with
      | '^' :: rest => (true, rest)
      | rest => (false, rest)
    let (name, rest) ← Text.splitFirstPair? ':' ']' rest
    let set ← asciiClasses.lookup (String.ofList name)
    return (set.negate negated, rest)
  | _ => none

/-- One item of a set: a character or an escaped set. -/
def readSetItem? (flags : Flags) : List Char → Option (Escape × List Char)
  | [] => none
  | '\\' :: rest => readEscape? flags rest
  | c :: rest => some (.literal c, rest)

/-- An item of a set on its own. Conditions on a place are no items. -/
def itemSet? : Escape → Option CharSet
  | .literal c => some (.single c)
  | .set chars => some chars
  | .look _ => none

/-- One item of a set, or a range between two characters. A hyphen before the closing bracket
or before another hyphen does not make a range. -/
def readSetRange? (flags : Flags) (text : List Char) : Option (CharSet × List Char) := do
  let (first, rest) ← readSetItem? flags text
  let alone := (itemSet? first).map fun set => (set, rest)
  match rest with
  | '-' :: ']' :: _ => alone
  | '-' :: '-' :: _ => alone
  | '-' :: rest =>
    let (last, rest) ← readSetItem? flags rest
    match first, last with
    | .literal first, .literal last =>
      if Nat.ble first.toNat last.toNat then some (.range first last, rest) else none
    | _, _ => none
  | _ => alone

/-- Skips the white space and comments that verbose patterns may hold. -/
def skipVerbose (flags : Flags) : Nat → List Char → List Char
  | 0, text => text
  | bound + 1, text =>
    if flags.verbose then
      match text with
      | '#' :: rest => skipVerbose flags bound (rest.dropWhile (· != '\n'))
      | c :: rest => if Text.isWhiteSpace c then skipVerbose flags bound rest else text
      | [] => []
    else
      text

/-- The opening of a bracketed set, after the bracket: whether it is negated, and the hyphens
or the closing bracket that stand first and count as characters. -/
def readSetOpening (text : List Char) : Bool × CharSet × List Char :=
  let (negated, text) := match text with
    | '^' :: rest => (true, rest)
    | text => (false, text)
  match text with
  | '-' :: _ => (negated, .single '-', text.dropWhile (· == '-'))
  | ']' :: rest => (negated, .single ']', rest)
  | _ => (negated, .empty, text)

mutual

/-- A bracketed set, after its opening bracket. -/
def readSet? (flags : Flags) : Nat → List Char → Option (CharSet × List Char)
  | 0, _ => none
  | bound + 1, text => do
    let (negated, opening, rest) := readSetOpening text
    let (set, rest) ← readSetItems? flags bound none opening rest
    return ((set.fold flags.ignoreCase).negate negated, rest)

/-- The items of a bracketed set up to its closing bracket. -/
def readSetItems? (flags : Flags) :
    Nat → Option (SetOperator × CharSet) → CharSet → List Char → Option (CharSet × List Char)
  | 0, _, _, _ => none
  | bound + 1, pending, current, text =>
    let finished := applyPending flags.ignoreCase pending current
    match skipVerbose flags text.length text with
    | [] => none
    | ']' :: rest => some (finished, rest)
    | '&' :: '&' :: rest => readSetItems? flags bound (some (.intersection, finished)) .empty rest
    | '-' :: '-' :: rest => readSetItems? flags bound (some (.difference, finished)) .empty rest
    | '~' :: '~' :: rest =>
      readSetItems? flags bound (some (.symmetricDifference, finished)) .empty rest
    | '[' :: rest =>
      match readAsciiClass? rest with
      | some (set, rest) => readSetItems? flags bound pending (.union current set) rest
      | none =>
        match readSet? flags bound rest with
        | none => none
        | some (set, rest) => readSetItems? flags bound pending (.union current set) rest
    | text =>
      match readSetRange? flags text with
      | none => none
      | some (set, rest) => readSetItems? flags bound pending (.union current set) rest

end

/-! ### Repetition -/

/-- A decimal number below `2 ^ 32`, which white space may surround. There is an inner `none`
for no digits at all. -/
def readCount? (text : List Char) : Option (Option Nat × List Char) :=
  let text := text.dropWhile Text.isWhiteSpace
  let digits := text.takeWhile Char.isDigit
  let rest := (text.dropWhile Char.isDigit).dropWhile Text.isWhiteSpace
  if digits.isEmpty then
    some (none, rest)
  else
    let value := Text.decimal digits
    if Nat.blt value 0x100000000 then some (some value, rest) else none

/-- The bounds of a counted repetition, after its opening brace. -/
def readBounds? (text : List Char) : Option (Nat × Option Nat × List Char) := do
  let (least, rest) ← readCount? text
  let least ← least
  match rest with
  | '}' :: rest => some (least, some least, rest)
  | ',' :: rest =>
    match rest.dropWhile Text.isWhiteSpace with
    | '}' :: rest => some (least, none, rest)
    | rest =>
      let (most, rest) ← readCount? rest
      let most ← most
      match rest with
      | '}' :: rest => if Nat.ble least most then some (least, some most, rest) else none
      | _ => none
  | _ => none

/-- The bounds of the repetition operator at the head of the text. The result is `some none`
when there is no operator. -/
def readOperator? : List Char → Option (Option (Nat × Option Nat × List Char))
  | '*' :: rest => some (some (0, none, rest))
  | '+' :: rest => some (some (1, none, rest))
  | '?' :: rest => some (some (0, some 1, rest))
  | '{' :: rest => (readBounds? rest).map some
  | _ => some none

/-- Whether a question mark follows, which reverses the preference of a repetition. -/
def readLazy : List Char → Bool × List Char
  | '?' :: rest => (true, rest)
  | rest => (false, rest)

/-! ### Groups -/

/-- The groups opened so far: their number, and the names some of them have. -/
structure Groups where
  count : Nat
  names : List (String × Nat)

/-- Opens a group. A name may be used only once. -/
def Groups.openGroup? (groups : Groups) (name : Option String) : Option (Nat × Groups) :=
  let index := groups.count + 1
  match name with
  | none => some (index, ⟨index, groups.names⟩)
  | some name =>
    if groups.names.any (·.1 == name) then
      none
    else
      some (index, ⟨index, groups.names ++ [(name, index)]⟩)

/-- Whether the characters make a group name: alphabetic or an underscore at the start, then
also numbers, dots and square brackets. -/
def isGroupName : List Char → Bool
  | [] => false
  | c :: rest =>
    (c == '_' || Text.isAlphabetic c)
      && rest.all fun c => c == '_' || c == '.' || c == '[' || c == ']' || Text.isAlphanumeric c

/-- A group name up to its closing angle bracket. -/
def readGroupName? (text : List Char) : Option (String × List Char) := do
  let (name, rest) ← Text.splitFirst? '>' text
  if isGroupName name then some (String.ofList name, rest) else none

/-- Sets or clears one flag. The flag for Unicode classes can only be set, as they always are: a
pattern that clears it is refused. -/
def Flags.set? (flags : Flags) (letter : Char) (value : Bool) : Option Flags :=
  match letter with
  | 'i' => some { flags with ignoreCase := value }
  | 'm' => some { flags with multiLine := value }
  | 's' => some { flags with dotAll := value }
  | 'U' => some { flags with swapGreed := value }
  | 'x' => some { flags with verbose := value }
  | 'R' => some { flags with carriageReturns := value }
  | 'u' => if value then some flags else none
  | _ => none

/-- Reads flag letters up to the colon or bracket that ends them. No letter may occur twice,
and a single minus sign, which clears the flags after it, must not come last. -/
def readFlags? : Flags → Bool → List Char → List Char → Option (Flags × List Char)
  | _, _, _, [] => none
  | flags, cleared, seen, c :: rest =>
    if c == ':' || c == ')' then
      if seen.head? == some '-' then none else some (flags, c :: rest)
    else if seen.contains c then
      none
    else if c == '-' then
      readFlags? flags true (c :: seen) rest
    else
      match flags.set? c (!cleared) with
      | none => none
      | some flags => readFlags? flags cleared (c :: seen) rest

/-- What an opening bracket starts. -/
inductive Opening where
  | capturing (name : Option String)
  | uncounted (flags : Flags)
  | directive (flags : Flags)

/-- Reads what stands between an opening bracket and the body of its group. -/
def readOpening? (flags : Flags) : List Char → Option (Opening × List Char)
  | '?' :: '=' :: _ => none
  | '?' :: '!' :: _ => none
  | '?' :: '<' :: '=' :: _ => none
  | '?' :: '<' :: '!' :: _ => none
  | '?' :: 'P' :: '<' :: rest =>
    (readGroupName? rest).map fun (name, rest) => (.capturing (some name), rest)
  | '?' :: '<' :: rest =>
    (readGroupName? rest).map fun (name, rest) => (.capturing (some name), rest)
  | '?' :: ')' :: _ => none
  | '?' :: rest =>
    match readFlags? flags false [] rest with
    | some (flags, ':' :: rest) => some (.uncounted flags, rest)
    | some (flags, ')' :: rest) => some (.directive flags, rest)
    | _ => none
  | rest => some (.capturing none, rest)

/-! ### Whole patterns -/

/-- The expression for one literal character. -/
def literalExpression (flags : Flags) (c : Char) : Expression :=
  .set ((CharSet.single c).fold flags.ignoreCase)

/-- The expression for an escape. -/
def escapeExpression (flags : Flags) : Escape → Expression
  | .literal c => literalExpression flags c
  | .set chars => .set chars
  | .look condition => .look condition

/-- The expression for a full stop: any character, or any that does not end a line. -/
def dotExpression (flags : Flags) : Expression :=
  .set (if flags.dotAll then .any
    else if flags.carriageReturns then .complement (.union (.single '\r') (.single '\n'))
    else .complement (.single '\n'))

/-- The condition for a circumflex: the start of the text, or of a line. -/
def startLook (flags : Flags) : Look :=
  if flags.multiLine then
    if flags.carriageReturns then .returnLineStart else .lineStart
  else
    .textStart

/-- The condition for a dollar sign: the end of the text, or of a line. -/
def endLook (flags : Flags) : Look :=
  if flags.multiLine then
    if flags.carriageReturns then .returnLineEnd else .lineEnd
  else
    .textEnd

/-- What has been read of a group: the finished alternatives and the items of the current one,
both latest first. A flag directive is an item without an expression, which cannot be
repeated. -/
structure Draft where
  alternatives : List Expression
  items : List (Option Expression)

namespace Draft

/-- Nothing read yet. -/
def start : Draft :=
  ⟨[], []⟩

/-- Adds an item. -/
def add (draft : Draft) (item : Option Expression) : Draft :=
  { draft with items := item :: draft.items }

/-- The expression of the current alternative. -/
def current (draft : Draft) : Expression :=
  .sequenceOf (draft.items.reverse.filterMap id)

/-- Begins the next alternative. -/
def branch (draft : Draft) : Draft :=
  ⟨draft.current :: draft.alternatives, []⟩

/-- The expression of the whole group. -/
def finish (draft : Draft) : Expression :=
  .alternativesOf (draft.current :: draft.alternatives).reverse

/-- Repeats the last item, which must be an expression. -/
def repeatLast? (draft : Draft) (least : Nat) (most : Option Nat) (greedy : Bool) :
    Option Draft :=
  match draft.items with
  | some last :: items =>
    some { draft with items := some (.repetition last least most greedy) :: items }
  | _ => none

end Draft

/-- A character or escape that is neither a bracket nor an operator, as an expression. -/
def readAtom? (flags : Flags) : List Char → Option (Expression × List Char)
  | [] => none
  | '.' :: rest => some (dotExpression flags, rest)
  | '^' :: rest => some (.look (startLook flags), rest)
  | '$' :: rest => some (.look (endLook flags), rest)
  | '\\' :: rest =>
    (readEscape? flags rest).map fun (escape, rest) => (escapeExpression flags escape, rest)
  | '[' :: rest =>
    (readSet? flags (rest.length + 1) rest).map fun (set, rest) => (.set set, rest)
  | c :: rest => some (literalExpression flags c, rest)

/-- Reads the body of a group: everything up to the bracket that closes it, or to the end. -/
def readBody? : Nat → Flags → Groups → Draft → List Char →
    Option (Expression × Groups × List Char)
  | 0, _, _, _, _ => none
  | bound + 1, flags, groups, draft, text =>
    match skipVerbose flags text.length text with
    | [] => some (draft.finish, groups, [])
    | ')' :: rest => some (draft.finish, groups, ')' :: rest)
    | '|' :: rest => readBody? bound flags groups draft.branch rest
    | '(' :: rest =>
      match readOpening? flags rest with
      | none => none
      | some (.directive flags, rest) => readBody? bound flags groups (draft.add none) rest
      | some (.uncounted inner, rest) =>
        match readBody? bound inner groups .start rest with
        | some (body, groups, ')' :: rest) =>
          readBody? bound flags groups (draft.add (some body)) rest
        | _ => none
      | some (.capturing name, rest) =>
        match groups.openGroup? name with
        | none => none
        | some (index, groups) =>
          match readBody? bound flags groups .start rest with
          | some (body, groups, ')' :: rest) =>
            readBody? bound flags groups (draft.add (some (.group index body))) rest
          | _ => none
    | text =>
      match readOperator? text with
      | none => none
      | some (some (least, most, rest)) =>
        let (lazy, rest) := readLazy rest
        match draft.repeatLast? least most (lazy == flags.swapGreed) with
        | none => none
        | some draft => readBody? bound flags groups draft rest
      | some none =>
        match readAtom? flags text with
        | none => none
        | some (atom, rest) => readBody? bound flags groups (draft.add (some atom)) rest

/-- The largest expression, with its repetitions written out, that is accepted. -/
def sizeLimit : Nat :=
  200000

end PatternReader

open PatternReader in
/-- Reads a pattern. The result is `none` for a text that is not one. -/
def Pattern.read? (text : List Char) : Option Pattern := do
  let (expression, groups, rest) ←
    readBody? (text.length + 1) Flags.initial ⟨0, []⟩ .start text
  if rest.isEmpty && Nat.ble expression.expandedSize sizeLimit then
    return Pattern.ofExpression expression groups.names
  else
    none

end DocComments
