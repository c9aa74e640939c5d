import DocTemplate.Json.Basic

/-!
# Writing JSON texts

Data is written compactly on one line, or with every item and field on a line of its own, indented
by two spaces for each level. Only quotes, backslashes and control characters are escaped.
-/

namespace DocTemplate.Json

/-- A hexadecimal digit. -/
def hexChar (n : Nat) : Char :=
  if n < 10 then Char.ofNat ('0'.toNat + n) else Char.ofNat ('a'.toNat + (n - 10))

/-- A character as it stands between quotes. -/
def escapeChar (c : Char) : String :=
  match c with
  | '"' => "\\\""
  | '\\' => "\\\\"
  | '\n' => "\\n"
  | '\r' => "\\r"
  | '\t' => "\\t"
  | '\x08' => "\\b"
  | '\x0c' => "\\f"
  | c =>
    if c.toNat < 0x20 then
      "\\u00" ++ String.ofList [hexChar (c.toNat / 16), hexChar (c.toNat % 16)]
    else String.singleton c

/-- A text between quotes. -/
def quote (text : String) : String :=
  text.toList.foldl (fun out c => out ++ escapeChar c) "\"" ++ "\""

/-- The text of a truth value. -/
def truthText (truth : Bool) : String :=
  if truth then "true" else "false"

namespace Data

mutual

/-- Data on one line without spaces. -/
def compact : Data → String
  | null => "null"
  | boolean truth => truthText truth
  | number value => value.text
  | string text => quote text
  | array [] => "[]"
  | array (item :: rest) => "[" ++ item.compact ++ compactItems rest ++ "]"
  | object ⟨[]⟩ => "\x7b\x7d"
  | object ⟨(key, value) :: rest⟩ =>
    "\x7b" ++ quote key ++ ":" ++ value.compact ++ compactFields rest ++ "\x7d"

/-- Items after the first of an array on one line. -/
def compactItems : List Data → String
  | [] => ""
  | item :: rest => "," ++ item.compact ++ compactItems rest

/-- Fields after the first of an object on one line. -/
def compactFields : List (String × Data) → String
  | [] => ""
  | (key, value) :: rest => "," ++ quote key ++ ":" ++ value.compact ++ compactFields rest

end

/-- A new line at a level. -/
def newLine (level : Nat) : String :=
  "\n".pushn ' ' (2 * level)

mutual

/-- Data with items and fields on lines of their own, standing at a level. -/
def indented (level : Nat) : Data → String
  | null => "null"
  | boolean truth => truthText truth
  | number value => value.text
  | string text => quote text
  | array [] => "[]"
  | array (item :: rest) =>
    "[" ++ newLine (level + 1) ++ indented (level + 1) item ++ indentedItems (level + 1) rest ++
      newLine level ++ "]"
  | object ⟨[]⟩ => "\x7b\x7d"
  | object ⟨(key, value) :: rest⟩ =>
    "\x7b" ++ newLine (level + 1) ++ quote key ++ ": " ++ indented (level + 1) value ++
      indentedFields (level + 1) rest ++ newLine level ++ "\x7d"

/-- Items after the first of an array on lines of their own. -/
def indentedItems (level : Nat) : List Data → String
  | [] => ""
  | item :: rest => "," ++ newLine level ++ indented level item ++ indentedItems level rest

/-- Fields after the first of an object on lines of their own. -/
def indentedFields (level : Nat) : List (String × Data) → String
  | [] => ""
  | (key, value) :: rest =>
    "," ++ newLine level ++ quote key ++ ": " ++ indented level value ++ indentedFields level rest

end

/-- Data with items and fields on lines of their own. -/
def pretty (data : Data) : String :=
  data.indented 0

end Data

end DocTemplate.Json
