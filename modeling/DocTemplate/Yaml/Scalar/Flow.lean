import DocTemplate.Yaml.Lexeme

/-!
# Plain and quoted scalars

The text of a plain or quoted scalar may go on over several lines. A single line break then counts as
a space, and of several the first counts for nothing; spaces around breaks are dropped. `Folding`
holds what has been read of such a text.
-/

namespace DocTemplate.Yaml

/-- A text that is being read, with the spaces and breaks at its end that may yet be folded. All
parts are given last character first. -/
structure Folding where
  /-- The text so far. -/
  text : List Char
  /-- The spaces after it, while there is no break. -/
  spaces : List Char
  /-- Whether a break follows the text. -/
  broken : Bool
  /-- The first break, unless it was escaped. -/
  first : List Char
  /-- The breaks after the first. -/
  more : List Char

namespace Folding

/-- Nothing read yet. -/
def start : Folding := ⟨[], [], false, [], []⟩

/-- Take in a space. -/
def addSpace (f : Folding) (c : Char) : Folding :=
  if f.broken then f else { f with spaces := c :: f.spaces }

/-- Take in a break. -/
def addBreak (f : Folding) (c : Char) : Folding :=
  if f.broken then { f with more := c :: f.more }
  else { f with spaces := [], broken := true, first := [c] }

/-- Take in a break that is escaped. -/
def escapeBreak (f : Folding) : Folding :=
  { f with broken := true }

/-- The text with the spaces and breaks at its end folded. -/
def folded (f : Folding) : List Char :=
  if f.broken then
    if f.first = ['\n'] then
      if f.more.isEmpty then ' ' :: f.text else f.more ++ f.text
    else f.more ++ (f.first ++ f.text)
  else f.spaces ++ f.text

/-- Fold what stands at the end. -/
def join (f : Folding) : Folding :=
  ⟨f.folded, [], false, [], []⟩

/-- Take in a character of the text. -/
def push (f : Folding) (c : Char) : Folding :=
  ⟨c :: f.folded, [], false, [], []⟩

end Folding

/-! ### Plain scalars -/

/-- Whether a character ends a plain scalar between brackets. -/
def isFlowIndicator (c : Char) : Bool :=
  c == ',' || c == '[' || c == ']' || c == '\x7b' || c == '\x7d'

/-- Whether a plain scalar ends before a character, given the one after it. -/
def endsPlain (inFlow : Bool) (c next : Char) : Bool :=
  (c == ':' && endsWord next) || (inFlow && isFlowIndicator c)

/-- Whether a colon stands where none may between brackets. -/
def isStrayColon (inFlow : Bool) (c next : Char) : Bool :=
  inFlow && c == ':' && (next == '?' || isFlowIndicator next)

/-- Read a plain scalar. After spaces or breaks it ends at a comment, at a mark between documents,
and outside brackets at a column to the left of `indent`. The reading that is returned shows whether
breaks follow the text. -/
def lexPlainFrom (inFlow : Bool) (indent : Nat) :
    Folding → Bool → List Cell → Option (Folding × List Cell)
  | f, _, [] => some (f, [])
  | f, afterSpace, cell :: rest =>
    let c := cell.char
    if c = endMark then some (f, cell :: rest)
    else if isSpace c then
      if f.broken && decide (cell.column < indent) && c == '\t' then none
      else lexPlainFrom inFlow indent (f.addSpace c) true rest
    else if isBreak c then lexPlainFrom inFlow indent (f.addBreak c) true rest
    else if afterSpace &&
        ((!inFlow && decide (cell.column < indent)) || atAnyDocumentMark (cell :: rest) ||
          c == '#') then
      some (f, cell :: rest)
    else if isStrayColon inFlow c (nextChar rest) then none
    else if endsPlain inFlow c (nextChar rest) then some (f, cell :: rest)
    else lexPlainFrom inFlow indent (f.push c) false rest

/-- Read a plain scalar; also tell whether a line break follows it. -/
def lexPlain (inFlow : Bool) (indent : Nat) : Lexer (String × Bool) := fun cells =>
  (lexPlainFrom inFlow indent .start false cells).map fun (f, rest) =>
    ((String.ofList f.text.reverse, f.broken), rest)

/-! ### Quoted scalars -/

/-- What an escape stands for. -/
inductive Escape where
  /-- A character. -/
  | char (c : Char)
  /-- A character given by a number of hexadecimal digits. -/
  | code (digits : Nat)

/-- What the character after a backslash says. -/
def escape? : Char → Option Escape
  | '0' => some (.char '\x00')
  | 'a' => some (.char '\x07')
  | 'b' => some (.char '\x08')
  | 't' => some (.char '\t')
  | '\t' => some (.char '\t')
  | 'n' => some (.char '\n')
  | 'v' => some (.char '\x0b')
  | 'f' => some (.char '\x0c')
  | 'r' => some (.char '\r')
  | 'e' => some (.char '\x1b')
  | ' ' => some (.char ' ')
  | '"' => some (.char '"')
  | '/' => some (.char '/')
  | '\\' => some (.char '\\')
  | 'N' => some (.char '\x85')
  | '_' => some (.char '\xa0')
  | 'L' => some (.char '\u2028')
  | 'P' => some (.char '\u2029')
  | 'x' => some (.code 2)
  | 'u' => some (.code 4)
  | 'U' => some (.code 8)
  | _ => none

/-- The number with some hexadecimal digits. -/
def ofHex? (digits : List Char) : Option Nat :=
  digits.foldlM (fun n c => (hexValue? c).map (16 * n + ·)) 0

/-- The character with a number, if there is one. -/
def charOfCode? (n : Nat) : Option Char :=
  if n < 0xd800 ∨ (0xdfff < n ∧ n ≤ 0x10ffff) then some (Char.ofNat n) else none

/-- Read a quoted scalar after its opening quote, up to and with the closing one. -/
def lexQuotedFrom (quote : Char) : Folding → Bool → List Cell → Option (List Char × List Cell)
  | _, _, [] => none
  | f, afterSpace, cell :: rest =>
    let c := cell.char
    if c = endMark then none
    else if isSpace c then lexQuotedFrom quote (f.addSpace c) true rest
    else if isBreak c then lexQuotedFrom quote (f.addBreak c) true rest
    else if afterSpace && atAnyDocumentMark (cell :: rest) then none
    else if c = quote then
      if quote = '\'' ∧ nextChar rest = quote then
        lexQuotedFrom quote (f.push c) false (rest.drop 1)
      else some (f.folded.reverse, rest)
    else if c = '\\' ∧ quote = '"' then
      if isBreak (nextChar rest) then lexQuotedFrom quote f.join.escapeBreak true (rest.drop 1)
      else
        match escape? (nextChar rest) with
        | none => none
        | some (.char e) => lexQuotedFrom quote (f.push e) false (rest.drop 1)
        | some (.code n) =>
          match (ofHex? (((rest.drop 1).take n).map Cell.char)).bind charOfCode? with
          | none => none
          | some e => lexQuotedFrom quote (f.push e) false (rest.drop (n + 1))
    else lexQuotedFrom quote (f.push c) false rest
termination_by _ _ cells => cells.length
decreasing_by
  all_goals simp only [List.length_drop, List.length_cons]
  all_goals omega

/-- Read a quoted scalar after its opening quote. -/
def lexQuoted (quote : Char) : Lexer String := fun cells =>
  (lexQuotedFrom quote .start false cells).map fun (text, rest) => (String.ofList text, rest)

end DocTemplate.Yaml
