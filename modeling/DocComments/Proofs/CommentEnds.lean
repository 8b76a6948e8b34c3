/-
This file proves where a block with the standard delimiters ends in its source.

A comment that a slash and a star begin ends at the first star with a slash behind it which comes
after this star. The scan looks for that pair line by line, from behind the whole opening
delimiter on the first line and from the front of every later one. Reading by lines does not
matter: a line that goes on in the next one ends with its line feed, which is neither a star nor a
slash, so no pair stands across two lines and none is found that the lines do not have.

What matters is where the search begins. The opening delimiter is a slash and two stars, and its
second star may already be the first half of the pair that ends the comment. Of a slash, two stars
and a slash, which is a whole comment, the scan takes the first three for an opening delimiter and
misses the end; the block then goes on to the next pair, and whatever stands in between becomes
its text. Every other block ends with its comment.
-/

import DocComments.Proofs.BlockExtents

namespace DocComments

/-! ### Pairs of characters -/

namespace Text

/-- The two characters stand side by side at this place of the text. -/
def PairAt (first second : Char) (text : List Char) (place : Nat) : Prop :=
  text[place]? = some first ∧ text[place + 1]? = some second

instance (first second : Char) (text : List Char) (place : Nat) :
    Decidable (PairAt first second text place) :=
  inferInstanceAs (Decidable (_ ∧ _))

/-- The place of the first pair in a text, where pairs before `start` do not count. -/
structure FirstPair (first second : Char) (text : List Char) (start place : Nat) : Prop where
  reached : start ≤ place
  found : PairAt first second text place
  before : ∀ earlier, start ≤ earlier → earlier < place → ¬ PairAt first second text earlier

/-- Two neighbours that are not this pair. -/
def Apart (first second c d : Char) : Prop :=
  ¬ (c = first ∧ d = second)

variable {first second : Char} {text front interior after : List Char} {start place : Nat}

/-- Beginning the search one place earlier finds the same pair, unless one stands right there. -/
theorem FirstPair.pred_iff (later : FirstPair first second text (start + 1) place) :
    FirstPair first second text start place ↔ ¬ PairAt first second text start := by
  constructor
  · exact fun earlier => earlier.before start (Nat.le_refl _) later.reached
  · intro notHere
    refine ⟨Nat.le_of_succ_le later.reached, later.found, fun other within upTo => ?_⟩
    rcases Nat.lt_or_eq_of_le within with after | rfl
    · exact later.before other after upTo
    · exact notHere

/-- A pair is the first one if no neighbours before its second character are one. -/
theorem firstPair_of_isChain (apart : (interior ++ [first]).IsChain (Apart first second)) :
    FirstPair first second (front ++ (interior ++ first :: second :: after)) front.length
      (front.length + interior.length) := by
  refine ⟨Nat.le_add_right _ _, ⟨by simp, ?_⟩, fun earlier reached upTo => ?_⟩
  · rw [Nat.add_assoc, List.getElem?_append_right (Nat.le_add_right _ _), Nat.add_sub_cancel_left,
      List.getElem?_append_right (Nat.le_add_right _ _), Nat.add_sub_cancel_left]
    rfl
  · obtain ⟨index, rfl⟩ := Nat.exists_eq_add_of_le reached
    have inside : index + 1 < (interior ++ [first]).length := by simp; omega
    have same (place : Nat) (within : place < (interior ++ [first]).length) :
        (front ++ (interior ++ first :: second :: after))[front.length + place]? =
          some ((interior ++ [first])[place]) := by
      rw [List.getElem?_append_right (Nat.le_add_right _ _), Nat.add_sub_cancel_left,
        ← List.getElem?_eq_getElem within, List.append_cons, List.getElem?_append_left within]
    rintro ⟨isFirst, isSecond⟩
    rw [same index (by omega)] at isFirst
    rw [Nat.add_assoc, same (index + 1) inside] at isSecond
    exact apart.getElem index inside ⟨Option.some.inj isFirst, Option.some.inj isSecond⟩

theorem isChain_of_splitFirstPair?_eq_none (noPair : splitFirstPair? first second text = none) :
    text.IsChain (Apart first second) := by
  fun_induction splitFirstPair? first second text with
  | case1 => exact .nil
  | case2 c => exact .singleton c
  | case3 => cases noPair
  | case4 c d rest differs inductionHypothesis =>
    refine .cons_cons ?_ (inductionHypothesis (Option.map_eq_none_iff.mp noPair))
    simpa [Apart] using differs

theorem eq_append_of_splitFirstPair? (cut : splitFirstPair? first second text =
    some (interior, after)) :
    text = interior ++ first :: second :: after ∧
      (interior ++ [first]).IsChain (Apart first second) := by
  fun_induction splitFirstPair? first second text generalizing interior with
  | case1 => cases cut
  | case2 => cases cut
  | case3 c d rest found =>
    obtain ⟨rfl, rfl⟩ : c = first ∧ d = second := by simpa using found
    cases cut
    exact ⟨rfl, .singleton c⟩
  | case4 c d rest differs inductionHypothesis =>
    obtain ⟨⟨interior, after⟩, found, same⟩ := Option.map_eq_some_iff.mp cut
    cases same
    obtain ⟨parts, apart⟩ := inductionHypothesis found
    refine ⟨congrArg (c :: ·) parts, List.isChain_cons.mpr ⟨fun e next => ?_, apart⟩⟩
    have neighbour : some d = (interior ++ [first]).head? := by
      have heads := congrArg List.head? parts
      rwa [List.append_cons, List.head?_append_of_ne_nil _ (by simp)] at heads
    obtain rfl := Option.some.inj (neighbour.trans next)
    simpa [Apart] using differs

/-- Text without the second character of the pair makes no pair behind another text. -/
theorem isChain_append_of_notMem {ending : List Char} (apart : text.IsChain (Apart first second))
    (without : second ∉ ending) : (text ++ ending).IsChain (Apart first second) := by
  refine apart.append (List.isChain_iff_getElem.mpr fun index inside same => ?_)
    fun c _ d isHead same => ?_
  · exact without (same.2 ▸ List.getElem_mem inside)
  · exact without (same.2 ▸ List.mem_of_head? isHead)

end Text

/-! ### Ends of lines -/

theorem exists_append_dropFinal (final : Char) (text : List Char) :
    ∃ ending, text = dropFinal final text ++ ending ∧ ∀ c ∈ ending, c = final := by
  rw [dropFinal]
  split
  · rename_i isLast
    refine ⟨[final], ?_, fun c => List.mem_singleton.mp⟩
    exact (List.dropLast_append_getLast? final (beq_iff_eq.mp isLast)).symm
  · exact ⟨[], (List.append_nil _).symm, List.forall_mem_nil _⟩

/-- A line is its content and line end characters. -/
theorem exists_append_lineContent (line : List Char) :
    ∃ ending, line = lineContent line ++ ending ∧ ∀ c ∈ ending, c = '\r' ∨ c = '\n' := by
  obtain ⟨feed, fed, isFeed⟩ := exists_append_dropFinal '\n' line
  obtain ⟨returns, returned, isReturn⟩ := exists_append_dropFinal '\r' (dropFinal '\n' line)
  refine ⟨returns ++ feed, ?_, List.forall_mem_append.mpr
    ⟨fun c inside => .inl (isReturn c inside), fun c inside => .inr (isFeed c inside)⟩⟩
  rw [lineContent, ← List.append_assoc, ← returned, ← fed]

/-- The end of a line is no part of a closing delimiter. -/
theorem isChain_of_lineContent {line : List Char}
    (apart : (lineContent line).IsChain (Text.Apart '*' '/')) :
    line.IsChain (Text.Apart '*' '/') := by
  obtain ⟨ending, parts, isEnd⟩ := exists_append_lineContent line
  have noSlash : '/' ∉ ending := fun inside => by simpa using isEnd '/' inside
  rw [parts]
  exact Text.isChain_append_of_notMem apart noSlash

/-- What follows a text in a line that has its line feed has it too. -/
theorem FedLine.of_append {front line : List Char} (noFeed : front.getLast? ≠ some '\n')
    (fed : FedLine (front ++ line)) : FedLine line := by
  obtain ⟨body, parts, noneInside⟩ := fed
  rcases List.eq_nil_or_concat line with rfl | ⟨init, c, rfl⟩
  · rw [List.append_nil] at parts
    rw [parts, List.getLast?_concat] at noFeed
    exact absurd rfl noFeed
  · rw [List.concat_eq_append, ← List.append_assoc] at parts
    obtain ⟨rfl, final⟩ := List.append_inj' parts rfl
    obtain rfl := List.singleton_inj.mp final
    rw [List.concat_eq_append]
    exact ⟨init, rfl, fun inside => noneInside (List.mem_append_right _ inside)⟩

/-- Lines without a pair that have their line feeds make no pair together, nor with what follows
them. -/
theorem isChain_flatten_append {lines : List (List Char)} {last : List Char}
    (fed : ∀ line ∈ lines, FedLine line)
    (apart : ∀ line ∈ lines, line.IsChain (Text.Apart '*' '/'))
    (apartLast : last.IsChain (Text.Apart '*' '/')) :
    (lines.flatten ++ last).IsChain (Text.Apart '*' '/') := by
  induction lines with
  | nil => exact apartLast
  | cons line lines inductionHypothesis =>
    obtain ⟨⟨body, rfl, -⟩, fedLater⟩ := List.forall_mem_cons.mp fed
    obtain ⟨apartHere, apartLater⟩ := List.forall_mem_cons.mp apart
    rw [List.flatten_cons, List.append_assoc]
    -- Across two lines a pair would need the line feed for its star.
    refine apartHere.append (inductionHypothesis fedLater apartLater) fun c isLast d _ same => ?_
    rw [List.getLast?_concat, Option.mem_some] at isLast
    cases isLast.trans same.1

/-! ### The interior of a block -/

/-- How many characters come before the line with this number, where the first line has number
one. -/
def charsBefore (lines : List (List Char)) (number : Nat) : Nat :=
  (lines.take (number - 1)).flatten.length

theorem charsBefore_length_succ (done lines : List (List Char)) :
    charsBefore (done ++ lines) (done.length + 1) = done.flatten.length := by
  rw [charsBefore, Nat.add_sub_cancel, List.take_left]

namespace Scanner

/-- The characters of the source between the delimiters of a block. The opening delimiter is the
one on its first line; the closing one is searched behind it if there is no other line, and else on
the last line. -/
def interior? (scanner : Scanner) (lines : List (List Char)) (block : Block) : Option Range := do
  let first ← contentAt lines block.startLine
  let opening ← scanner.opens first
  let start := charsBefore lines block.startLine + opening.stop
  if block.startLine = block.endLine then
    let closing ← scanner.closes (first.drop opening.stop)
    return ⟨start, start + closing.start⟩
  else
    let last ← contentAt lines block.endLine
    let closing ← scanner.closes last
    return ⟨start, charsBefore lines block.endLine + closing.start⟩

/-- The text of a block that has these lines between its delimiters, with their line feeds, and
this part of a line before the closing one. -/
def interiorText (scanner : Scanner) (column : Nat) (lines : List (List Char))
    (last : List Char) : List Char :=
  match lines with
  | [] => closingText ((scanner.strip 0 last).dropWhile Text.isBlank)
  | first :: inner =>
    (scanner.textLines column (lineContent first) (inner.map lineContent) last).flatMap
      (· ++ ['\n'])

/-- A source is cut at the delimiters of a block into what comes before the opening one, the lines
between them with the part of a line before the closing one, and what comes after that. -/
structure CutsAt (scanner : Scanner) (block : Block) (source front : List Char)
    (lines : List (List Char)) (last after : List Char) : Prop where
  parts : source = front ++ ['/', '*', '*'] ++ (lines.flatten ++ last ++ '*' :: '/' :: after)
  interior : scanner.interior? (splitLines source) block =
    some ⟨front.length + 3, front.length + 3 + (lines.flatten ++ last).length⟩
  apart : (lines.flatten ++ last ++ ['*']).IsChain (Text.Apart '*' '/')
  fed : ∀ line ∈ lines, FedLine line
  noFeed : '\n' ∉ last
  text : block.text = scanner.interiorText
    (front.length + 3 - charsBefore (splitLines source) block.startLine) lines last

variable {scanner : Scanner} {source line : List Char} {block : Block} {opening closing : Range}
  {lines before later : List (List Char)}

namespace CutsAt

variable {front last after : List Char}

theorem drop_front (cut : scanner.CutsAt block source front lines last after) :
    source.drop front.length =
      ['/', '*', '*'] ++ (lines.flatten ++ last ++ '*' :: '/' :: after) := by
  rw [cut.parts, List.append_assoc, List.drop_left]

theorem slice_interior (cut : scanner.CutsAt block source front lines last after) :
    Range.slice ⟨front.length + 3, front.length + 3 + (lines.flatten ++ last).length⟩ source =
      lines.flatten ++ last := by
  rw [Range.slice, List.drop_take, Nat.add_sub_cancel_left, ← List.drop_drop, cut.drop_front]
  exact List.take_left

theorem firstPair (cut : scanner.CutsAt block source front lines last after) :
    Text.FirstPair '*' '/' source (front.length + 3)
      (front.length + 3 + (lines.flatten ++ last).length) := by
  have length : (front ++ ['/', '*', '*']).length = front.length + 3 := List.length_append
  rw [cut.parts, ← length]
  exact Text.firstPair_of_isChain cut.apart

end CutsAt

theorem exists_line_of_contentAt {number : Nat} {content : List Char}
    (found : contentAt lines number = some content) :
    ∃ before line later, lines = before ++ line :: later ∧ number = before.length + 1 ∧
      lineContent line = content := by
  cases number with
  | zero => cases found
  | succ index =>
    obtain ⟨line, there, same⟩ := Option.map_eq_some_iff.mp found
    obtain ⟨inside, rfl⟩ := List.getElem?_eq_some_iff.mp there
    refine ⟨lines.take index, _, lines.drop (index + 1), ?_, ?_, same⟩
    · rw [List.getElem_cons_drop, List.take_append_drop]
    · rw [List.length_take_of_le (Nat.le_of_lt inside)]

theorem interior?_of_singleLine (split : lines = before ++ line :: later)
    (startLine : block.startLine = before.length + 1) (single : block.startLine = block.endLine)
    (opens : scanner.opens (lineContent line) = some opening)
    (closes : scanner.closes ((lineContent line).drop opening.stop) = some closing) :
    scanner.interior? lines block = some ⟨before.flatten.length + opening.stop,
      before.flatten.length + opening.stop + closing.start⟩ := by
  have content : contentAt lines block.startLine = some (lineContent line) := by
    rw [split, startLine, contentAt_length_succ]
  have start : charsBefore lines block.startLine = before.flatten.length := by
    rw [split, startLine, charsBefore_length_succ]
  simp only [interior?, Option.bind_eq_bind, content, start, Option.bind_some, opens,
    if_pos single, closes, Option.pure_def]

theorem interior?_of_severalLines {first last : List Char} {inner : List (List Char)}
    (split : lines = before ++ first :: (inner ++ last :: later))
    (startLine : block.startLine = before.length + 1)
    (endLine : block.endLine = before.length + inner.length + 2)
    (opens : scanner.opens (lineContent first) = some opening)
    (closes : scanner.closes (lineContent last) = some closing) :
    scanner.interior? lines block = some ⟨before.flatten.length + opening.stop,
      (before ++ first :: inner).flatten.length + closing.start⟩ := by
  have several : block.startLine ≠ block.endLine := by omega
  have endLine' : block.endLine = (before ++ first :: inner).length + 1 := by
    rw [endLine, List.length_append, List.length_cons]
    omega
  have split' : lines = (before ++ first :: inner) ++ last :: later := by
    rw [split, List.append_assoc, List.cons_append]
  have firstContent : contentAt lines block.startLine = some (lineContent first) := by
    rw [split, startLine, contentAt_length_succ]
  have lastContent : contentAt lines block.endLine = some (lineContent last) := by
    rw [split', endLine', contentAt_length_succ]
  have firstStart : charsBefore lines block.startLine = before.flatten.length := by
    rw [split, startLine, charsBefore_length_succ]
  have lastStart : charsBefore lines block.endLine = (before ++ first :: inner).flatten.length := by
    rw [split', endLine', charsBefore_length_succ]
  simp only [interior?, Option.bind_eq_bind, firstContent, lastContent, firstStart, lastStart,
    Option.bind_some, opens, if_neg several, closes, Option.pure_def]

/-! ### The standard delimiters -/

section

variable (opens : scanner.opens = Pattern.blockOpening.inLine)
  (closes : scanner.closes = Pattern.blockClosing.inLine)

include opens in
/-- A line that opens a block is cut at its delimiter, and so is its content. -/
theorem exists_front_of_opens (found : scanner.opens (lineContent line) = some opening) :
    ∃ spaces rest, line = spaces ++ ['/', '*', '*'] ++ rest ∧ opening.stop = spaces.length + 3 ∧
      (lineContent line).drop opening.stop = lineContent rest := by
  rw [opens, Pattern.inLine_blockOpening] at found
  obtain ⟨stop, stops, rfl⟩ := Option.map_eq_some_iff.mp found
  rw [Pattern.openingStop?] at stops
  split at stops
  · rename_i starts
    obtain ⟨rest, inContent⟩ := starts
    obtain rfl := Option.some.inj stops
    obtain ⟨ending, parts, -⟩ := exists_append_lineContent line
    have whole : line = (lineContent line).takeWhile Text.isWhiteSpace ++ ['/', '*', '*'] ++
        (rest ++ ending) := by
      rw [← List.append_assoc, List.append_assoc _ _ rest, inContent,
        List.takeWhile_append_dropWhile, ← parts]
    have content := (congrArg lineContent whole).trans
      (lineContent_append_of_getLast? (by simp) (by simp) _)
    exact ⟨_, rest ++ ending, whole, rfl, (congrArg (List.drop _) content).trans
      (List.drop_left' (by simp))⟩
  · cases stops

include closes in
theorem isChain_of_closes_eq_none (closesNot : scanner.closes (lineContent line) = none) :
    line.IsChain (Text.Apart '*' '/') := by
  rw [closes, Pattern.inLine_blockClosing, Option.map_eq_none_iff] at closesNot
  exact isChain_of_lineContent (Text.isChain_of_splitFirstPair?_eq_none closesNot)

include closes in
/-- A line that closes is cut at the first delimiter in it. -/
theorem exists_last_of_closes (found : scanner.closes (lineContent line) = some closing) :
    ∃ last after, (lineContent line).take closing.start = last ∧ closing.start = last.length ∧
      line = last ++ '*' :: '/' :: after ∧
      (last ++ ['*']).IsChain (Text.Apart '*' '/') := by
  rw [closes, Pattern.inLine_blockClosing] at found
  obtain ⟨⟨last, after⟩, cut, rfl⟩ := Option.map_eq_some_iff.mp found
  obtain ⟨content, apart⟩ := Text.eq_append_of_splitFirstPair? cut
  obtain ⟨ending, parts, -⟩ := exists_append_lineContent line
  rw [content] at parts ⊢
  refine ⟨last, after ++ ending, List.take_left, rfl, ?_, apart⟩
  rw [parts, List.append_assoc, List.cons_append, List.cons_append]

include opens closes in
theorem exists_cutsAt_of_singleLine (member : block ∈ scanner.scan source)
    (single : block.startLine = block.endLine) :
    ∃ front lines last after, scanner.CutsAt block source front lines last after := by
  obtain ⟨content, opening, closing, found, opensLine, closesRest, text⟩ :=
    text_of_singleLine member single
  obtain ⟨before, line, later, lines, startLine, rfl⟩ := exists_line_of_contentAt found
  have noFeed : '\n' ∉ lineContent line :=
    lineFeed_notMem_of_mem_splitLines (lines ▸ List.mem_append_right _ List.mem_cons_self)
  have interior := interior?_of_singleLine lines startLine single opensLine closesRest
  obtain ⟨spaces, tail, rfl, stop, rest⟩ := exists_front_of_opens opens opensLine
  have noFeedRest : '\n' ∉ lineContent tail := rest ▸ mt List.mem_of_mem_drop noFeed
  rw [rest] at closesRest text
  obtain ⟨last, after, taken, length, rfl, apart⟩ := exists_last_of_closes closes closesRest
  refine ⟨before.flatten ++ spaces, [], last, after ++ later.flatten, ?_, ?_, apart,
    List.forall_mem_nil _, ?_, ?_⟩
  · rw [← flatten_splitLines source, lines]
    simp
  · rw [interior, stop, length, List.length_append, ← Nat.add_assoc, List.flatten_nil,
      List.nil_append]
  · rw [← taken]
    exact mt List.mem_of_mem_take noFeedRest
  · rw [text, interiorText, taken]

include opens closes in
theorem exists_cutsAt_of_severalLines (member : block ∈ scanner.scan source)
    (several : block.startLine < block.endLine) :
    ∃ front lines last after, scanner.CutsAt block source front lines last after := by
  obtain ⟨before, inner, later, firstLine, lastLine, opening, closing, lines, startLine, endLine,
    opensFirst, closesLast, text⟩ := exists_lines_of_severalLines member several
  obtain ⟨rest, opened, closed⟩ := encloses_of_mem_scan member
  obtain ⟨-, notHere, between, -⟩ := closed.resolve_left fun single =>
    Nat.ne_of_gt several single.1
  have closesNot := closesNot_of_closesAt lines fun number after before =>
    between number (by omega) (by omega)
  rw [startLine, lines, remainder?_length_succ, opensFirst, Option.map_some] at opened
  obtain rfl := Option.some.inj opened
  obtain ⟨spaces, tail, rfl, stop, rest⟩ := exists_front_of_opens opens opensFirst
  rw [rest] at notHere text
  obtain ⟨last, after, taken, length, rfl, apartLast⟩ := exists_last_of_closes closes closesLast
  have split := lines.trans (List.append_assoc before (_ :: inner) _).symm
  obtain ⟨-, fedOpened⟩ := List.forall_mem_append.mp (fed_of_splitLines split).1
  obtain ⟨fedFirst, fedInner⟩ := List.forall_mem_cons.mp fedOpened
  have fed : ∀ line ∈ tail :: inner, FedLine line :=
    List.forall_mem_cons.mpr ⟨fedFirst.of_append (by simp), fedInner⟩
  refine ⟨before.flatten ++ spaces, tail :: inner, last, after ++ later.flatten, ?_, ?_, ?_, fed,
    ?_, ?_⟩
  · rw [← flatten_splitLines source, lines]
    simp
  · rw [interior?_of_severalLines lines startLine endLine opensFirst closesLast, stop, length,
      Option.some.injEq, Range.mk.injEq]
    simp only [List.flatten_append, List.flatten_cons, List.length_append, List.length_cons,
      List.length_nil]
    omega
  · have apartOpened := List.forall_mem_cons.mpr ⟨isChain_of_closes_eq_none closes notHere,
      fun line inside => isChain_of_closes_eq_none closes (closesNot line inside)⟩
    rw [List.append_assoc]
    exact isChain_flatten_append fed apartOpened apartLast
  · have noFeed : '\n' ∉ lineContent (last ++ '*' :: '/' :: after) :=
      lineFeed_notMem_of_mem_splitLines (split ▸ List.mem_append_right _ List.mem_cons_self)
    rw [← taken]
    exact mt List.mem_of_mem_take noFeed
  · rw [startLine, lines, charsBefore_length_succ, text, interiorText, taken, stop,
      List.length_append, Nat.add_assoc, Nat.add_sub_cancel_left]

include opens closes in
theorem exists_cutsAt_of_mem_scan (member : block ∈ scanner.scan source) :
    ∃ front lines last after, scanner.CutsAt block source front lines last after := by
  rcases Nat.lt_or_eq_of_le (encloses_of_mem_scan member).first_le_last with several | single
  · exact exists_cutsAt_of_severalLines opens closes member several
  · exact exists_cutsAt_of_singleLine opens closes member single

end

end Scanner

namespace DocParser

/-- With the standard delimiters and whatever other settings, every block of a source begins behind
a slash and two stars and ends at the first closing delimiter after them. It ends where the comment
does, at the first one that begins no earlier than with the second star, unless the next character
is a slash. Its text is what is left of the lines between the delimiters once they are stripped. -/
theorem blocks_end_at_first_closing {config : ParserConfig} {table : TagTable} {parser : DocParser}
    (accepted : ofConfig config table = .ok parser)
    (opening : config.openPattern = ParserConfig.standard.openPattern)
    (closing : config.closePattern = ParserConfig.standard.closePattern) {source : List Char}
    {block : Block} (member : block ∈ parser.scanner.scan source) :
    ∃ slash stop,
      parser.scanner.interior? (splitLines source) block = some ⟨slash + 3, stop⟩ ∧
      ['/', '*', '*'] <+: source.drop slash ∧
      Text.FirstPair '*' '/' source (slash + 3) stop ∧
      (Text.FirstPair '*' '/' source (slash + 2) stop ↔ source[slash + 3]? ≠ some '/') ∧
      ∃ lines last, Range.slice ⟨slash + 3, stop⟩ source = lines.flatten ++ last ∧
        (∀ line ∈ lines, FedLine line) ∧ '\n' ∉ last ∧
        block.text = parser.scanner.interiorText
          (slash + 3 - charsBefore (splitLines source) block.startLine) lines last := by
  obtain ⟨opens, closes⟩ := delimiters_of_ofConfig accepted opening closing
  obtain ⟨front, lines, last, after, cut⟩ := Scanner.exists_cutsAt_of_mem_scan opens closes member
  have secondStar : source[front.length + 2]? = some '*' := by
    rw [← List.getElem?_drop, cut.drop_front]
    rfl
  refine ⟨front.length, _, cut.interior, ⟨_, cut.drop_front.symm⟩, cut.firstPair, ?_, lines, last,
    cut.slice_interior, cut.fed, cut.noFeed, cut.text⟩
  rw [cut.firstPair.pred_iff, Text.PairAt, and_iff_right secondStar]

/-- A comment whose first line ends with a star and whose next line begins with a slash. -/
theorem blocks_end_at_first_closing_standard :
    ofConfig .standard .builtin = .ok standard ∧
    ⟨2, 3, Span.between 7 26, " b **\n".toList⟩ ∈
      standard.scanner.scan "let a;\n /** b **\n/ c */ */\n".toList ∧
    standard.scanner.interior? (splitLines "let a;\n /** b **\n/ c */ */\n".toList)
      ⟨2, 3, Span.between 7 26, " b **\n".toList⟩ = some ⟨11, 21⟩ ∧
    Text.FirstPair '*' '/' "let a;\n /** b **\n/ c */ */\n".toList 10 21 := by
  have member : ⟨2, 3, Span.between 7 26, " b **\n".toList⟩ ∈
      standard.scanner.scan "let a;\n /** b **\n/ c */ */\n".toList := by
    decide +kernel
  have interior : standard.scanner.interior?
      (splitLines "let a;\n /** b **\n/ c */ */\n".toList)
      ⟨2, 3, Span.between 7 26, " b **\n".toList⟩ = some ⟨11, 21⟩ := by
    decide +kernel
  obtain ⟨slash, stop, found, -, -, ends, -⟩ :=
    blocks_end_at_first_closing ofConfig_standard rfl rfl member
  obtain ⟨rfl, rfl⟩ : slash = 8 ∧ 21 = stop := by
    simpa using interior.symm.trans found
  exact ⟨ofConfig_standard, member, interior, ends.mpr (by decide)⟩

/-- The comment at the front of the source ends with its fourth character. The block that opens with
it goes on to the end of the third line, over the code of the second and into another comment. -/
theorem scan_runs_past_empty_comment :
    standard.scanner.scan "/**/\nlet a;\n/** @class A */\n".toList =
      [⟨1, 3, Span.between 0 27, "/\n a;\n @class A\n".toList⟩] ∧
    standard.scanner.interior? (splitLines "/**/\nlet a;\n/** @class A */\n".toList)
      ⟨1, 3, Span.between 0 27, "/\n a;\n @class A\n".toList⟩ = some ⟨3, 25⟩ ∧
    Text.FirstPair '*' '/' "/**/\nlet a;\n/** @class A */\n".toList 2 2 ∧
    ¬ Text.FirstPair '*' '/' "/**/\nlet a;\n/** @class A */\n".toList 2 25 := by
  have ends : Text.PairAt '*' '/' "/**/\nlet a;\n/** @class A */\n".toList 2 := by decide
  refine ⟨by decide +kernel, by decide +kernel, ⟨Nat.le_refl 2, ends, ?_⟩, ?_⟩
  · exact fun earlier reached upTo => absurd upTo (Nat.not_lt_of_le reached)
  · exact fun first => first.before 2 (Nat.le_refl 2) (by decide) ends

end DocParser

end DocComments
