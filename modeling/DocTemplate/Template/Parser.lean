import DocTemplate.Template.Basic
import DocTemplate.Template.Error
import DocTemplate.Text.Line
import DocTemplate.Text.Name
import DocTemplate.Text.Offset

/-!
# Reading a template

A template is read from left to right with the alternatives of each place tried in a fixed order:
a conditional, a loop, a variable, a doubled dollar, a run of other text. A reader takes a `Cursor`
and returns what it read, if anything, and the cursor it ends at. One that reads nothing ends where
it began; what it leaves behind is the mark of the furthest place at which something was missing,
and that is where an error is reported.

A block that stands on lines of its own takes the line terminators after its two outer tags with it.
It takes both or none: if only the opening tag is followed by one, that terminator is the beginning
of the first part.

The number of open blocks is bounded by a limit. Reaching it ends the reading at once.
-/

namespace DocTemplate

open Text (utf8Length isNameChar splitTerminator splitAtOffset lineNumber)

/-- The state of a reading. -/
structure Cursor where
  /-- The text still to be read. -/
  rest : List Char
  /-- The offset of that text in the source. -/
  pos : Nat
  /-- The largest offset at which something was missing. -/
  furthest : Nat
  /-- The number of blocks that are open. -/
  depth : Nat

/-- The block opened at an offset is one too many. -/
structure TooDeep where
  /-- The offset of the block. -/
  offset : Nat

namespace Cursor

/-- The state before anything is read. -/
def start (source : List Char) : Cursor :=
  ⟨source, 0, 0, 0⟩

/-- The state after noting that something is missing here. -/
def miss (s : Cursor) : Cursor :=
  { s with furthest := max s.furthest s.pos }

/-- The state after reading some text, with what is left. -/
def advance (s : Cursor) (taken rest : List Char) : Cursor :=
  { s with rest := rest, pos := s.pos + utf8Length taken }

/-- The state back at an earlier place. -/
def rewind (s origin : Cursor) : Cursor :=
  { s with rest := origin.rest, pos := origin.pos }

end Cursor

namespace Parser

/-! ### Words and names -/

/-- What follows a token at the front of a text. -/
def afterToken? : List Char → List Char → Option (List Char)
  | [], rest => some rest
  | _ :: _, [] => none
  | t :: token, c :: rest => if c = t then afterToken? token rest else none

/-- Read a token; note if it is missing. -/
def eat (token : List Char) (s : Cursor) : Bool × Cursor :=
  match afterToken? token s.rest with
  | some rest => (true, s.advance token rest)
  | none => (false, s.miss)

/-- Read a line terminator if there is one; the text read is returned. -/
def eatTerminator (s : Cursor) : List Char × Cursor :=
  let (terminator, rest) := splitTerminator s.rest
  (terminator, s.advance terminator rest)

/-- Read a component of a reference: name characters, as many as there are and at least one. -/
def name (s : Cursor) : Option String × Cursor :=
  match s.rest.takeWhile isNameChar with
  | [] => (none, s.miss)
  | c :: cs => (some (String.ofList (c :: cs)), s.advance (c :: cs) (s.rest.dropWhile isNameChar))

theorem length_rest_name_lt {s t : Cursor} {n : String} (h : name s = (some n, t)) :
    t.rest.length < s.rest.length := by
  rw [name] at h
  split at h
  · simp at h
  · next c cs heq =>
    simp only [Prod.mk.injEq, Option.some.injEq] at h
    obtain ⟨-, rfl⟩ := h
    have := congrArg List.length (List.takeWhile_append_dropWhile (p := isNameChar) (l := s.rest))
    rw [heq, List.length_append, List.length_cons] at this
    simp only [Cursor.advance]
    omega

/-- Read the components of a reference after the first, each after a dot; those read already are
given last first. A dot that no name follows is left unread. -/
def furtherNames (names : List String) (s : Cursor) : List String × Cursor :=
  match _hs : s.rest with
  | '.' :: rest =>
    match _hn : name (s.advance ['.'] rest) with
    | (some n, t) => furtherNames (n :: names) t
    | (none, t) => (names.reverse, t.rewind s)
  | _ => (names.reverse, s)
termination_by s.rest.length
decreasing_by
  have := length_rest_name_lt _hn
  simp only [Cursor.advance] at this
  rw [_hs, List.length_cons]
  omega

/-- Read a reference: names with a dot between two of them. -/
def reference (s : Cursor) : Option Reference × Cursor :=
  match name s with
  | (none, t) => (none, t)
  | (some first, t) =>
    let (rest, u) := furtherNames [] t
    (some ⟨first, rest⟩, u)

/-! ### Elements without parts -/

/-- Read the opening tag of a block. -/
def openTag (kind : BlockKind) (s : Cursor) : Option Reference × Cursor :=
  match eat kind.opening s with
  | (false, t) => (none, t)
  | (true, t) =>
    match reference t with
    | (none, u) => (none, u.rewind s)
    | (some r, u) =>
      match eat [')', '$'] u with
      | (true, v) => (some r, v)
      | (false, v) => (none, v.rewind s)

/-- Read a variable: a reference between dollars that does not begin with a reserved word. -/
def interpolation (s : Cursor) : Option Reference × Cursor :=
  match eat ['$'] s with
  | (false, t) => (none, t)
  | (true, t) =>
    match reference t with
    | (none, u) => (none, u.rewind s)
    | (some r, u) =>
      if r.isReserved then (none, u.rewind s)
      else
        match eat ['$'] u with
        | (true, v) => (some r, v)
        | (false, v) => (none, v.rewind s)

/-- Read text up to the next dollar, at least one character. -/
def literalRun (s : Cursor) : Option String × Cursor :=
  match s.rest.takeWhile (· != '$') with
  | [] => (none, s)
  | c :: cs => (some (String.ofList (c :: cs)), s.advance (c :: cs) (s.rest.dropWhile (· != '$')))

/-- Read an element without parts: a variable, a doubled dollar or a run of text. -/
def leaf (s : Cursor) : Option Node × Cursor :=
  match interpolation s with
  | (some r, t) => (some (.interpolation r), t)
  | (none, t) =>
    match eat ['$', '$'] t with
    | (true, u) => (some (.literal "$"), u)
    | (false, u) =>
      match literalRun u with
      | (some text, v) => (some (.literal text), v)
      | (none, v) => (none, v)

/-! ### Blocks -/

/-- What reads the nodes of a part of a block. -/
abbrev PartReader := Cursor → Except TooDeep (List Node × Cursor)

/-- The two parts of a block. -/
abbrev Parts := List Node × Option (List Node)

/-- Read the parts of a block and its closing tag. -/
def parts (inner : PartReader) (kind : BlockKind) (s : Cursor) :
    Except TooDeep (Option Parts × Cursor) :=
  match inner s with
  | .error e => .error e
  | .ok (first, t) =>
    match eat kind.middle t with
    | (true, u) =>
      match inner u with
      | .error e => .error e
      | .ok (second, v) =>
        match eat kind.closing v with
        | (true, w) => .ok (some (first, some second), w)
        | (false, w) => .ok (none, w)
    | (false, u) =>
      match eat kind.closing u with
      | (true, v) => .ok (some (first, none), v)
      | (false, v) => .ok (none, v)

/-- Read what follows an opening tag. The line terminator after the tag is dropped if one follows
the closing tag too, which is then read as well; otherwise it begins the first part. -/
def contents (inner : PartReader) (kind : BlockKind) (s : Cursor) :
    Except TooDeep (Option Parts × Cursor) :=
  match eatTerminator s with
  | ([], t) => parts inner kind t
  | (terminator, t) =>
    match parts inner kind t with
    | .error e => .error e
    | .ok (none, u) => .ok (none, u)
    | .ok (some (first, second), u) =>
      match eatTerminator u with
      | ([], _) => .ok (some (Node.cons (.literal (String.ofList terminator)) first, second), u)
      | (_ :: _, v) => .ok (some (first, second), v)

/-- Read a block. -/
def block (limit : Nat) (inner : PartReader) (kind : BlockKind) (s : Cursor) :
    Except TooDeep (Option Node × Cursor) :=
  match openTag kind s with
  | (none, t) => .ok (none, t)
  | (some r, t) =>
    if limit ≤ t.depth then .error ⟨s.pos⟩
    else
      match contents inner kind { t with depth := t.depth + 1 } with
      | .error e => .error e
      | .ok (some (first, second), u) =>
        .ok (some (.block kind r first second), { u with depth := u.depth - 1 })
      | .ok (none, u) => .ok (none, { u with depth := u.depth - 1 }.rewind s)

/-- Read an element of a template: a block if there is one, else an element without parts. -/
def element (limit : Nat) (inner : PartReader) (s : Cursor) :
    Except TooDeep (Option Node × Cursor) :=
  match block limit inner .conditional s with
  | .error e => .error e
  | .ok (some node, t) => .ok (some node, t)
  | .ok (none, t) =>
    match block limit inner .loop t with
    | .error e => .error e
    | .ok (some node, u) => .ok (some node, u)
    | .ok (none, u) => .ok (leaf u)

/-- Read elements, as many as there are; the nodes read already are given last first. Every element
is at least one character long, so that `steps` need not exceed the length of the text by more than
one. -/
def elements (limit : Nat) : Nat → List Node → PartReader
  | 0, nodes, s => .ok (nodes.reverse, s)
  | steps + 1, nodes, s =>
    match element limit (elements limit steps []) s with
    | .error e => .error e
    | .ok (none, t) => .ok (nodes.reverse, t)
    | .ok (some node, t) => elements limit steps (Node.snoc nodes node) t

end Parser

namespace Template

/-- The greatest number of characters shown of what is unexpected. -/
def excerptLength : Nat := 40

/-- The error for a source in which something is missing at an offset. -/
def failureAt (source : List Char) (offset : Nat) : TemplateError :=
  let (before, after) := splitAtOffset offset source
  match after.take excerptLength with
  | [] => .unexpectedEnd (lineNumber before)
  | excerpt => .unexpected (lineNumber before) (String.ofList excerpt)

/-- The template that a source is written form of, with blocks nested to at most `limit` levels. -/
def compile (source : String) (limit : Nat) : Except TemplateError Template :=
  let text := source.toList
  match Parser.elements limit (text.length + 1) [] (Cursor.start text) with
  | .error tooDeep =>
    .error (.nestingTooDeep (lineNumber (splitAtOffset tooDeep.offset text).1) limit)
  | .ok (nodes, s) =>
    match s.rest with
    | [] => .ok ⟨nodes⟩
    | _ :: _ => .error (failureAt text s.furthest)

end Template

end DocTemplate
