import DocTemplate.Proofs.Text.Slice
import DocTemplate.Template.Parser

/-!
# Reading by offsets

A cursor holds the text that is left to be read. A reading can do without: it holds the source once
and for all, and in its state only an offset, from which it cuts the text that is left whenever it
looks at it. Such a state is quickly put back, by an assignment to the offset, and as quickly spoiled.
If a wrong number of bytes is added, the next slice may begin inside a character, or behind the end
of the source; if an offset is not put back, the next alternative is tried in the wrong place.

The readers of this module work in this way. A slice that is none ends the reading (`Abort.badSlice`).
Line terminators and dots are passed by adding their numbers of bytes, a reader that gives up assigns
the offset it began with, and the readers of the parts of a block do not even that, but leave it to
the reader of the block.

A reading writes down what it does, and keeps the record when it is ended: every state it is in, and
for each reader that may return nothing, from which state it was called and in which it returned.
-/

namespace DocTemplate

open Text (utf8Length isNameChar lineNumber slice?)

/-- The state of a reading by offsets. -/
structure Offsets where
  /-- The offset in the source of what is still to be read. -/
  pos : Nat
  /-- The largest offset at which something was missing. -/
  furthest : Nat
  /-- The number of blocks that are open. -/
  depth : Nat
deriving DecidableEq

/-- What can be tried: the readers that may return nothing. -/
inductive Attempt where
  | name
  | reference
  | literalRun
  | interpolation
  | openTag (kind : BlockKind)
  | block (kind : BlockKind)
deriving DecidableEq

namespace Slicing

/-- What a reading by offsets writes down. -/
inductive Event where
  /-- The state is now this one. -/
  | reached (state : Offsets)
  /-- What was tried in one state has returned in another, with or without a result. -/
  | returned (attempt : Attempt) (found : Bool) (entry exit : Offsets)
deriving DecidableEq

/-- A state with the record of how it was reached. -/
structure History where
  /-- The state. -/
  now : Offsets
  /-- The record, in order. -/
  events : List Event

namespace History

/-- Before anything is read. -/
def start : History :=
  ⟨⟨0, 0, 0⟩, [.reached ⟨0, 0, 0⟩]⟩

/-- After a change of the state. -/
def move (h : History) (change : Offsets → Offsets) : History :=
  ⟨change h.now, h.events ++ [.reached (change h.now)]⟩

/-- After a reader returned. -/
def note (h : History) (attempt : Attempt) (found : Bool) (entry : Offsets) : History :=
  { h with events := h.events ++ [.returned attempt found entry h.now] }

end History

/-- Why a reading by offsets ends early. -/
inductive Abort where
  /-- The source is not a template. -/
  | refused (e : TemplateError)
  /-- Between two offsets there is no slice. -/
  | badSlice (start stop : Nat)

/-- A reading of a source by offsets. -/
abbrev Reading (α : Type) := ReaderT String (EStateM Abort History) α

/-! ### Steps -/

variable {α : Type}

/-- The source. -/
def source : Reading String :=
  fun source h => .ok source h

/-- The state. -/
def here : Reading Offsets :=
  fun _ h => .ok h.now h

/-- Change the state. -/
def move (change : Offsets → Offsets) : Reading Unit :=
  fun _ h => .ok () (h.move change)

/-- End the reading. -/
def abort (reason : Abort) : Reading α :=
  fun _ h => .error reason h

/-- Cut a slice out of a text. -/
def slice (text : String) (start stop : Nat) : Reading String :=
  match slice? text start stop with
  | some part => pure part
  | none => abort (.badSlice start stop)

/-- Try a reader and write down how it returns. -/
def call (attempt : Attempt) (x : Reading (Option α)) : Reading (Option α) := do
  let entry ← here
  let result? ← x
  fun _ h => .ok result? (h.note attempt result?.isSome entry)

/-- The text that is left. -/
def rest : Reading String := do
  let source ← source
  slice source (← here).pos source.utf8ByteSize

/-- Note that something is missing here. -/
def miss : Reading Unit :=
  move fun s => { s with furthest := max s.furthest s.pos }

/-- Pass over some bytes. -/
def advance (bytes : Nat) : Reading Unit :=
  move fun s => { s with pos := s.pos + bytes }

/-- Go on reading at an offset. -/
def goTo (pos : Nat) : Reading Unit :=
  move fun s => { s with pos := pos }

/-! ### Words and names -/

/-- Read a token; note if it is missing. -/
def eat (token : List Char) : Reading Bool := do
  if token <+: (← rest).toList then
    advance (utf8Length token)
    return true
  else
    miss
    return false

/-- Read a line terminator if there is one. -/
def eatTerminator : Reading Bool := do
  let rest ← rest
  if ['\r', '\n'] <+: rest.toList then
    advance 2
    return true
  else if ['\n'] <+: rest.toList then
    advance 1
    return true
  else
    return false

/-- Read a component of a reference. -/
def name : Reading (Option String) :=
  call .name do
    let rest ← rest
    let length := utf8Length (rest.toList.takeWhile isNameChar)
    if length = 0 then
      miss
      return none
    else
      advance length
      return some (← slice rest 0 length)

/-- Read the components of a reference after the first, in so many steps at most; those read already
are given last first. -/
def furtherNames : Nat → List String → Reading (List String)
  | 0, names => return names.reverse
  | steps + 1, names => do
    if ['.'] <+: (← rest).toList then
      let beforeDot := (← here).pos
      advance 1
      match ← name with
      | some n => furtherNames steps (n :: names)
      | none =>
        goTo beforeDot
        return names.reverse
    else
      return names.reverse

/-- Read a reference. -/
def reference : Reading (Option Reference) :=
  call .reference do
    match ← name with
    | none => return none
    | some first =>
      let rest ← furtherNames (← source).length []
      return some ⟨first, rest⟩

/-! ### Elements without parts -/

/-- Read the opening tag of a block. -/
def openTag (kind : BlockKind) : Reading (Option Reference) :=
  call (.openTag kind) do
    let start := (← here).pos
    if ← eat kind.opening then
      match ← reference with
      | none =>
        goTo start
        return none
      | some r =>
        if ← eat [')', '$'] then
          return some r
        else
          goTo start
          return none
    else
      return none

/-- Read a variable. -/
def interpolation : Reading (Option Reference) :=
  call .interpolation do
    let start := (← here).pos
    if ← eat ['$'] then
      match ← reference with
      | none =>
        goTo start
        return none
      | some r =>
        if r.isReserved then
          goTo start
          return none
        else if ← eat ['$'] then
          return some r
        else
          goTo start
          return none
    else
      return none

/-- Read text up to the next dollar. -/
def literalRun : Reading (Option String) :=
  call .literalRun do
    let rest ← rest
    let length := utf8Length (rest.toList.takeWhile (· != '$'))
    if length = 0 then
      return none
    else
      advance length
      return some (← slice rest 0 length)

/-- Read an element without parts. -/
def leaf : Reading (Option Node) := do
  match ← interpolation with
  | some r => return some (.interpolation r)
  | none =>
    if ← eat ['$', '$'] then
      return some (.literal "$")
    else
      match ← literalRun with
      | some text => return some (.literal text)
      | none => return none

/-! ### Blocks -/

open DocTemplate.Parser (Parts)

/-- What reads the nodes of a part of a block. -/
abbrev PartReader := Reading (List Node)

/-- Read the parts of a block and its closing tag. Where these are not found the offset stays where
the reading came to. -/
def parts (inner : PartReader) (kind : BlockKind) : Reading (Option Parts) := do
  let first ← inner
  if ← eat kind.middle then
    let second ← inner
    if ← eat kind.closing then
      return some (first, some second)
    else
      return none
  else
    if ← eat kind.closing then
      return some (first, none)
    else
      return none

/-- Read what follows an opening tag. The line terminator behind the tag is cut out of the source
between the offsets before and after it. -/
def contents (inner : PartReader) (kind : BlockKind) : Reading (Option Parts) := do
  let afterTag := (← here).pos
  let opened ← eatTerminator
  let terminator ← slice (← source) afterTag (← here).pos
  match ← parts inner kind with
  | none => return none
  | some (first, second) =>
    if opened then
      if ← eatTerminator then
        return some (first, second)
      else
        return some (Node.cons (.literal terminator) first, second)
    else
      return some (first, second)

/-- Read a block. -/
def block (limit : Nat) (inner : PartReader) (kind : BlockKind) : Reading (Option Node) :=
  call (.block kind) do
    let start := (← here).pos
    match ← openTag kind with
    | none => return none
    | some r =>
      if limit ≤ (← here).depth then
        let before ← slice (← source) 0 start
        abort (.refused (.nestingTooDeep (lineNumber before.toList) limit))
      else
        move fun s => { s with depth := s.depth + 1 }
        let parts? ← contents inner kind
        move fun s => { s with depth := s.depth - 1 }
        match parts? with
        | some (first, second) => return some (.block kind r first second)
        | none =>
          goTo start
          return none

/-- Read an element of a template. -/
def element (limit : Nat) (inner : PartReader) : Reading (Option Node) := do
  match ← block limit inner .conditional with
  | some node => return some node
  | none =>
    match ← block limit inner .loop with
    | some node => return some node
    | none => leaf

/-- Read elements, as many as there are. -/
def elements (limit : Nat) : Nat → List Node → PartReader
  | 0, nodes => return nodes.reverse
  | steps + 1, nodes => do
    match ← element limit (elements limit steps []) with
    | none => return nodes.reverse
    | some node => elements limit steps (Node.snoc nodes node)

/-! ### Templates -/

/-- Refuse the source where something is missing. -/
def failure : Reading α := do
  let source ← source
  let offset := (← here).furthest
  let before ← slice source 0 offset
  let after ← slice source offset source.utf8ByteSize
  match after.toList.take Template.excerptLength with
  | [] => abort (.refused (.unexpectedEnd (lineNumber before.toList)))
  | excerpt =>
    abort (.refused (.unexpected (lineNumber before.toList) (String.ofList excerpt)))

/-- Read a template. -/
def template (limit : Nat) : Reading Template := do
  let source ← source
  let nodes ← elements limit (source.length + 1) []
  if (← here).pos < source.utf8ByteSize then
    failure
  else
    return ⟨nodes⟩

/-- What a reading of a source comes to, with its record. -/
def run (x : Reading α) (source : String) : Except Abort α × List Event :=
  match x source .start with
  | .ok a h => (.ok a, h.events)
  | .error reason h => (.error reason, h.events)

end Slicing

namespace Template

/-- The template that a source is written form of, read by offsets, and the record of the reading. -/
def compileSlicing (source : String) (limit : Nat) :
    Except Slicing.Abort Template × List Slicing.Event :=
  Slicing.run (Slicing.template limit) source

end Template

end DocTemplate
