/-
This file says what white space is and how it is cut away.

Two notions are in use. The Unicode property White_Space decides where words end and what
trimming removes; it holds of the no-break space and of the line and paragraph separators, and
does not hold of the zero-width space or of the byte order mark. A blank is a space or a tab,
which is all that may indent a line of a comment. Texts are lists of characters, so that every
cut is one of the standard list operations.
-/

namespace DocComments.Text

/-- White_Space of the Unicode character database. -/
def isWhiteSpace (c : Char) : Bool :=
  let code := c.toNat
  (Nat.ble 0x09 code && Nat.ble code 0x0D) || code == 0x20 || code == 0x85 || code == 0xA0
    || code == 0x1680 || (Nat.ble 0x2000 code && Nat.ble code 0x200A) || code == 0x2028
    || code == 0x2029 || code == 0x202F || code == 0x205F || code == 0x3000

/-- A space or a tab: what indents a line. -/
def isBlank (c : Char) : Bool :=
  c == ' ' || c == '\t'

/-- The white space that may stand between the parts of a tag value: space, tab, carriage
return and line feed. -/
def isSeparator (c : Char) : Bool :=
  c == ' ' || c == '\t' || c == '\r' || c == '\n'

/-! ### Trimming -/

/-- The text without its longest tail of characters to cut. -/
def dropTail (cut : Char → Bool) (text : List Char) : List Char :=
  (text.reverse.dropWhile cut).reverse

/-- The text without its longest head and its longest tail of characters to cut. -/
def trimWith (cut : Char → Bool) (text : List Char) : List Char :=
  dropTail cut (text.dropWhile cut)

/-- The text without surrounding white space. -/
def trim (text : List Char) : List Char :=
  trimWith isWhiteSpace text

/-! ### Words -/

/-- The first maximal run of characters that are not white space, if there is one. -/
def firstWord? (text : List Char) : Option (List Char) :=
  match text.dropWhile isWhiteSpace with
  | [] => none
  | c :: rest => some ((c :: rest).takeWhile (fun d => !isWhiteSpace d))

/-- Cuts at the last white space character: what stands before it, and the run after it. The
result is `none` for a text without white space. -/
def splitLastSpace? (text : List Char) : Option (List Char × List Char) :=
  match text.reverse.dropWhile (fun c => !isWhiteSpace c) with
  | [] => none
  | _ :: before =>
    some (before.reverse, (text.reverse.takeWhile (fun c => !isWhiteSpace c)).reverse)

end DocComments.Text
