import DocTemplate.Json.Number

/-!
# The tokens of a JSON text

A JSON text is cut into brackets, separators, texts, words and numbers by an automaton that reads one
character at a time. The escapes of a text are resolved once its closing quote is found.
-/

namespace DocTemplate.Json

/-- A token. -/
inductive Token where
  /-- `[` -/
  | openArray
  /-- `]` -/
  | closeArray
  /-- `{` -/
  | openObject
  /-- `}` -/
  | closeObject
  /-- `:` -/
  | colon
  /-- `,` -/
  | comma
  /-- A text. -/
  | string (text : String)
  /-- A word or a number. -/
  | atom (data : Data)

/-- The value of a hexadecimal digit. -/
def hexDigit? (c : Char) : Option Nat :=
  if '0' ≤ c ∧ c ≤ '9' then some (c.toNat - '0'.toNat)
  else if 'a' ≤ c ∧ c ≤ 'f' then some (c.toNat - 'a'.toNat + 10)
  else if 'A' ≤ c ∧ c ≤ 'F' then some (c.toNat - 'A'.toNat + 10)
  else none

/-- The value of four hexadecimal digits. -/
def fourHex? (a b c d : Char) : Option Nat := do
  return ((← hexDigit? a) * 4096 + (← hexDigit? b) * 256 + (← hexDigit? c) * 16 + (← hexDigit? d))

/-- The character that a letter after a backslash stands for. -/
def simpleEscape? : Char → Option Char
  | '"' => some '"'
  | '\\' => some '\\'
  | '/' => some '/'
  | 'b' => some '\x08'
  | 'f' => some '\x0c'
  | 'n' => some '\n'
  | 'r' => some '\r'
  | 't' => some '\t'
  | _ => none

/-- The text that stands between two quotes. An escape by number of half of a surrogate pair must be
followed by the escape of the other half. -/
def unescape : List Char → Option (List Char)
  | [] => some []
  | '\\' :: 'u' :: a :: b :: c :: d :: rest =>
    match fourHex? a b c d with
    | none => none
    | some high =>
      if 0xd800 ≤ high ∧ high < 0xdc00 then
        match rest with
        | '\\' :: 'u' :: e :: f :: g :: h :: rest =>
          match fourHex? e f g h with
          | none => none
          | some low =>
            if 0xdc00 ≤ low ∧ low < 0xe000 then
              (unescape rest).map
                (Char.ofNat (0x10000 + (high - 0xd800) * 0x400 + (low - 0xdc00)) :: ·)
            else none
        | _ => none
      else if 0xdc00 ≤ high ∧ high < 0xe000 then none
      else (unescape rest).map (Char.ofNat high :: ·)
  | '\\' :: c :: rest =>
    match simpleEscape? c with
    | some e => (unescape rest).map (e :: ·)
    | none => none
  | c :: rest =>
    if c = '\\' ∨ c.toNat < 0x20 then none else (unescape rest).map (c :: ·)

/-- The data that a word is. -/
def Data.ofWord? (word : List Char) : Option Data :=
  if word = ['n', 'u', 'l', 'l'] then some .null
  else if word = ['t', 'r', 'u', 'e'] then some (.boolean true)
  else if word = ['f', 'a', 'l', 's', 'e'] then some (.boolean false)
  else (Number.ofWord? word).map .number

namespace Token

/-- What the automaton is reading, with the characters of it read so far, last first. -/
inductive Reading where
  /-- Nothing. -/
  | between
  /-- A text, possibly right after a backslash. -/
  | inString (escaped : Bool) (chars : List Char)
  /-- A word or a number. -/
  | inWord (chars : List Char)

/-- The state of the automaton: the tokens found so far, last first, and what it is reading. -/
structure State where
  /-- The tokens found so far, last first. -/
  tokens : List Token
  /-- What is being read. -/
  reading : Reading

/-- Read a character that begins a token or stands between two. -/
def beginWith (tokens : List Token) (c : Char) : State :=
  match c with
  | ' ' | '\t' | '\n' | '\r' => ⟨tokens, .between⟩
  | '[' => ⟨openArray :: tokens, .between⟩
  | ']' => ⟨closeArray :: tokens, .between⟩
  | '\x7b' => ⟨openObject :: tokens, .between⟩
  | '\x7d' => ⟨closeObject :: tokens, .between⟩
  | ':' => ⟨colon :: tokens, .between⟩
  | ',' => ⟨comma :: tokens, .between⟩
  | '"' => ⟨tokens, .inString false []⟩
  | c => ⟨tokens, .inWord [c]⟩

/-- Whether a character ends a word. -/
def endsWord (c : Char) : Bool :=
  c == ' ' || c == '\t' || c == '\n' || c == '\r' || c == '[' || c == ']' || c == '\x7b' ||
    c == '\x7d' || c == ':' || c == ',' || c == '"'

/-- Read a character. -/
def State.step (s : State) (c : Char) : Option State :=
  match s.reading with
  | .between => some (beginWith s.tokens c)
  | .inString true chars => some ⟨s.tokens, .inString false (c :: chars)⟩
  | .inString false chars =>
    if c = '"' then
      (unescape chars.reverse).map fun text =>
        ⟨string (String.ofList text) :: s.tokens, .between⟩
    else some ⟨s.tokens, .inString (c == '\\') (c :: chars)⟩
  | .inWord chars =>
    if endsWord c then
      (Data.ofWord? chars.reverse).map fun data => beginWith (atom data :: s.tokens) c
    else some ⟨s.tokens, .inWord (c :: chars)⟩

/-- The tokens of a text. -/
def ofText? (text : List Char) : Option (List Token) := do
  let s ← text.foldlM State.step ⟨[], .between⟩
  match s.reading with
  | .between => return s.tokens.reverse
  | .inString _ _ => none
  | .inWord chars => return (atom (← Data.ofWord? chars.reverse) :: s.tokens).reverse

end Token

end DocTemplate.Json
