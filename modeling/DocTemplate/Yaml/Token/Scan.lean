import DocTemplate.Yaml.Scalar.Block
import DocTemplate.Yaml.Scalar.Flow

/-!
# From characters to tokens

Two things about a YAML text show only later than where they begin. A word may turn out to be the key
of a mapping once a colon follows it on the same line: the place of such a possible key is kept, and
the tokens that announce it are put there when the colon is found. And an indented collection ends
where a line stands further to the left: the columns of the collections that are open are kept, and
each ends with a token of its own.
-/

namespace DocTemplate.Yaml

/-- A place where the key of a mapping may have begun. -/
structure PossibleKey where
  /-- Whether nothing but a key may stand there. -/
  required : Bool
  /-- The number of tokens before it. -/
  tokenCount : Nat
  /-- The place itself. -/
  cell : Cell

/-- The number of bytes that may stand between the beginning of a key and its colon. -/
def maxKeyLength : Nat := 1024

/-- Whether a possible key cannot be one any more at a cell: a key stands on one line and is not
long. -/
def PossibleKey.isStale (key : PossibleKey) (cell : Cell) : Bool :=
  key.cell.line < cell.line || key.cell.offset + maxKeyLength < cell.offset

/-- The state of the reading. -/
structure Scan where
  /-- The cells still to be read. -/
  rest : List Cell
  /-- The tokens found so far. -/
  tokens : Array Token
  /-- The column of the innermost indented collection, negative if there is none. -/
  indent : Int
  /-- The columns of the collections around it. -/
  outer : List Int
  /-- A possible key for each level of brackets, innermost first, with one for the text outside. -/
  keys : List (Option PossibleKey)
  /-- Whether a key may begin here. -/
  keyAllowed : Bool
  /-- Whether the end of the text has been read. -/
  finished : Bool

namespace Scan

/-- The state before anything is read. -/
def start (cells : List Cell) : Scan :=
  ⟨cells, #[], -1, [], [none], true, false⟩

/-- Whether brackets are open. -/
def inFlow (s : Scan) : Bool :=
  1 < s.keys.length

/-- The next cell. -/
def next (s : Scan) : Cell :=
  s.rest.headD ⟨endMark, 0, 0, 0⟩

/-- Add a token. -/
def emit (s : Scan) (token : Token) : Scan :=
  { s with tokens := s.tokens.push token }

/-- Add a token for an indicator of one character and go on after it. -/
def emitIndicator (s : Scan) (token : Token) : Scan :=
  { s with tokens := s.tokens.push token, rest := s.rest.drop 1 }

/-! ### Spaces and comments -/

/-- The cells from the next token on, and whether a key may begin there. Tabs separate tokens only
where no key may begin, or between brackets, and a byte order mark does so only at the beginning of a
line. -/
def skipToToken (inFlow : Bool) : Bool → Bool → List Cell → List Cell × Bool
  | keyAllowed, _, [] => ([], keyAllowed)
  | keyAllowed, inComment, cell :: rest =>
    let c := cell.char
    if isBreak c then skipToToken inFlow (keyAllowed || !inFlow) false rest
    else if c = endMark then (cell :: rest, keyAllowed)
    else if inComment then skipToToken inFlow keyAllowed true rest
    else if c = '#' then skipToToken inFlow keyAllowed true rest
    else if c = ' ' ∨ (c = '\t' ∧ (inFlow || !keyAllowed)) ∨ (c = '\ufeff' ∧ cell.column = 0) then
      skipToToken inFlow keyAllowed false rest
    else (cell :: rest, keyAllowed)

/-- Go on to the next token. -/
def skip (s : Scan) : Scan :=
  let (rest, keyAllowed) := skipToToken s.inFlow s.keyAllowed false s.rest
  { s with rest := rest, keyAllowed := keyAllowed }

/-! ### Possible keys -/

/-- What is left of a possible key at a cell; nothing at all if a key is required. -/
def refresh? (cell : Cell) : Option PossibleKey → Option (Option PossibleKey)
  | none => some none
  | some key =>
    if key.isStale cell then (if key.required then none else some none) else some (some key)

/-- Give up possible keys that cannot be one any more. -/
def dropStaleKeys (s : Scan) : Option Scan := do
  return { s with keys := ← s.keys.mapM (refresh? s.next) }

/-- Give up the possible key of the current level. -/
def dropKey (s : Scan) : Option Scan :=
  match s.keys with
  | some key :: keys => if key.required then none else some { s with keys := none :: keys }
  | _ => some s

/-- Note that a key may begin here. -/
def noteKey (s : Scan) : Option Scan :=
  if s.keyAllowed then do
    let required := !s.inFlow && s.indent == (s.next.column : Int)
    let s ← s.dropKey
    return { s with keys := some ⟨required, s.tokens.size, s.next⟩ :: s.keys.drop 1 }
  else some s

/-! ### Indentation -/

/-- End the indented collections, with their columns innermost first, that stand to the right of a
column. -/
def closeIndents (column : Int) (tokens : Array Token) (indent : Int) :
    List Int → Array Token × Int × List Int
  | [] => (tokens, indent, [])
  | next :: outer =>
    if column < indent then closeIndents column (tokens.push .blockEnd) next outer
    else (tokens, indent, next :: outer)

/-- End the indented collections that stand to the right of a column, outside brackets. -/
def unindent (s : Scan) (column : Int) : Scan :=
  if s.inFlow then s
  else
    let (tokens, indent, outer) := closeIndents column s.tokens s.indent s.outer
    { s with tokens := tokens, indent := indent, outer := outer }

/-- Begin an indented collection at a column, outside brackets, unless one stands there; its token is
put in after a number of tokens. -/
def indentAt (s : Scan) (column : Nat) (tokenCount : Nat) (token : Token) : Scan :=
  if !s.inFlow && decide (s.indent < (column : Int)) then
    { s with
      tokens := s.tokens.insertIdxIfInBounds tokenCount token
      indent := column
      outer := s.indent :: s.outer }
  else s

/-! ### Tokens -/

/-- Read the end of the text. -/
def readEnd (s : Scan) : Option Scan := do
  let s ← (s.unindent (-1)).dropKey
  return { s with keyAllowed := false, finished := true }

/-- Read a directive. -/
def readDirective (s : Scan) : Option Scan := do
  let s ← (s.unindent (-1)).dropKey
  let (token, rest) ← lexDirective (s.rest.drop 1)
  return { s.emit token with keyAllowed := false, rest := rest }

/-- Read a mark between documents. -/
def readDocumentMark (s : Scan) (token : Token) : Option Scan := do
  let s ← (s.unindent (-1)).dropKey
  return { s.emit token with keyAllowed := false, rest := s.rest.drop 3 }

/-- Read an opening bracket. -/
def readOpening (s : Scan) (token : Token) : Option Scan := do
  let s ← s.noteKey
  return { s.emitIndicator token with keys := none :: s.keys, keyAllowed := true }

/-- Read a closing bracket. -/
def readClosing (s : Scan) (token : Token) : Option Scan := do
  let s ← s.dropKey
  let keys := if s.inFlow then s.keys.drop 1 else s.keys
  return { s.emitIndicator token with keys := keys, keyAllowed := false }

/-- Read a comma between brackets. -/
def readComma (s : Scan) : Option Scan := do
  let s ← s.dropKey
  return { s.emitIndicator .flowEntry with keyAllowed := true }

/-- Read the dash of an item. -/
def readDash (s : Scan) : Option Scan := do
  if !s.inFlow && !s.keyAllowed then none
  let s ← (s.indentAt s.next.column s.tokens.size .blockSequenceStart).dropKey
  return { s.emitIndicator .blockEntry with keyAllowed := true }

/-- Read the question mark of a key. -/
def readQuestion (s : Scan) : Option Scan := do
  if !s.inFlow && !s.keyAllowed then none
  let s ← (s.indentAt s.next.column s.tokens.size .blockMappingStart).dropKey
  return { s.emitIndicator .key with keyAllowed := !s.inFlow }

/-- Read the colon of a value. If a key may have begun before it, one did. -/
def readColon (s : Scan) : Option Scan :=
  match s.keys with
  | some key :: keys =>
    let s := { s with tokens := s.tokens.insertIdxIfInBounds key.tokenCount .key }
    let s := s.indentAt key.cell.column key.tokenCount .blockMappingStart
    some { s.emitIndicator .value with keys := none :: keys, keyAllowed := false }
  | _ =>
    if !s.inFlow && !s.keyAllowed then none
    else
      let s := s.indentAt s.next.column s.tokens.size .blockMappingStart
      some { s.emitIndicator .value with keyAllowed := !s.inFlow }

/-- Read a word with a reader of its own. -/
def readWord (s : Scan) (lexer : Lexer Token) : Option Scan := do
  let s ← s.noteKey
  let (token, rest) ← lexer s.rest
  return { s.emit token with keyAllowed := false, rest := rest }

/-- Read a plain scalar. A key may begin after it if it is followed by a line break. -/
def readPlain (s : Scan) : Option Scan := do
  let s ← s.noteKey
  let ((text, broken), rest) ← lexPlain s.inFlow (s.indent + 1).toNat s.rest
  return { s.emit (.scalar text .plain) with keyAllowed := broken, rest := rest }

/-- Read a block scalar. -/
def readBlock (s : Scan) (folds : Bool) : Option Scan := do
  let s ← s.dropKey
  let (text, rest) ← lexBlock folds s.indent (s.rest.drop 1)
  let style : ScalarStyle := if folds then .folded else .literal
  return { s.emit (.scalar text style) with keyAllowed := true, rest := rest }

/-- Read a name after its indicator. -/
def lexNamed (make : String → Token) : Lexer Token := fun cells =>
  (lexName (cells.drop 1)).map fun (name, rest) => (make name, rest)

/-- Read a quoted scalar. -/
def lexQuotedToken (quote : Char) (style : ScalarStyle) : Lexer Token := fun cells =>
  (lexQuoted quote (cells.drop 1)).map fun (text, rest) => (.scalar text style, rest)

/-- Read a tag. -/
def lexTagToken (inFlow : Bool) : Lexer Token := fun cells =>
  (lexTag inFlow cells).map fun ((handle, suffix), rest) => (.tag handle suffix, rest)

/-- Whether a plain scalar may begin with a character, given the one after it. -/
def beginsPlain (inFlow : Bool) (c next : Char) : Bool :=
  !(endsWord c || "-?:,[]\x7b\x7d#&*!|>'\"%@\u0060".toList.contains c) ||
    (c == '-' && !isSpace next) ||
    (!inFlow && (c == '?' || c == ':') && !endsWord next)

/-- Read a token that begins with a character, given the one after it. -/
def readToken (s : Scan) (c next : Char) : Option Scan :=
  let free := s.inFlow || endsWord next
  if c = endMark then s.readEnd
  else if c = '%' ∧ s.next.column = 0 then s.readDirective
  else if atDocumentMark '-' s.rest then s.readDocumentMark .documentStart
  else if atDocumentMark '.' s.rest then s.readDocumentMark .documentEnd
  else if c = '[' then s.readOpening .flowSequenceStart
  else if c = '\x7b' then s.readOpening .flowMappingStart
  else if c = ']' then s.readClosing .flowSequenceEnd
  else if c = '\x7d' then s.readClosing .flowMappingEnd
  else if c = ',' then s.readComma
  else if c = '-' ∧ endsWord next then s.readDash
  else if c = '?' ∧ free then s.readQuestion
  else if c = ':' ∧ free then s.readColon
  else if c = '*' then s.readWord (lexNamed .alias)
  else if c = '&' then s.readWord (lexNamed .anchor)
  else if c = '!' then s.readWord (lexTagToken s.inFlow)
  else if c = '|' ∧ !s.inFlow then s.readBlock false
  else if c = '>' ∧ !s.inFlow then s.readBlock true
  else if c = '\'' then s.readWord (lexQuotedToken '\'' .singleQuoted)
  else if c = '"' then s.readWord (lexQuotedToken '"' .doubleQuoted)
  else if beginsPlain s.inFlow c next then s.readPlain
  else none

/-- Read the next token. -/
def step (s : Scan) : Option Scan := do
  if s.finished then return s
  let s ← s.skip.dropStaleKeys
  let s := s.unindent s.next.column
  s.readToken (charAt 0 s.rest) (charAt 1 s.rest)

end Scan

/-- The tokens of a text, if it can be cut into tokens. Every token but the end of the text is at
least one character long, so that a step for each cell is enough. -/
def Token.ofText? (text : String) : Option (List Token) := do
  let cells ← cells? text
  let s ← cells.foldlM (fun s _ => s.step) (Scan.start cells)
  if s.finished then return s.tokens.toList else none

end DocTemplate.Yaml
