import DocTemplate.Template.Parser

/-!
# Readings with a record of their blocks

A reader returns what it read and the cursor it ends at. It does not tell what was tried on the way:
a block may have been entered and given up again. `Traced` is a result together with that record. The
readers with a record make the same steps in the same order as those without, and write down when the
opening tag of a block is read and when a block that was opened is given up.

**The record changes nothing** (`Traced.elements_result`, `Template.compileTraced_fst`): what a reader
with a record returns is what the reader without returns. So what is proved of the record is proved of
the readings that are done.
-/

namespace DocTemplate

/-- What can happen to a block in a reading. -/
inductive BlockEvent where
  /-- The opening tag at an offset is read. -/
  | opened (offset : Nat)
  /-- The block with its opening tag at an offset is given up. -/
  | abandoned (offset : Nat)
deriving DecidableEq

/-- The result of a reading, with what happens to blocks on the way to it, in order. -/
structure Traced (α : Type) where
  /-- What is read, unless a block is one too many. -/
  result : Except TooDeep α
  /-- What happens to blocks. -/
  events : List BlockEvent

namespace Traced

variable {α β : Type}

/-- A reading after some events. -/
def after (events : List BlockEvent) (x : Traced α) : Traced α :=
  ⟨x.result, events ++ x.events⟩

/-- One reading after another, if the first is not refused. -/
instance : Monad Traced where
  pure a := ⟨.ok a, []⟩
  bind x f :=
    match x.result with
    | .error e => ⟨.error e, x.events⟩
    | .ok a => (f a).after x.events

/-- Write down an event. -/
def note (event : BlockEvent) : Traced Unit :=
  ⟨.ok (), [event]⟩

/-- Refuse a block that is one too many. -/
def refuse (e : TooDeep) : Traced α :=
  ⟨.error e, []⟩

@[simp] theorem after_mk (events others : List BlockEvent) (result : Except TooDeep α) :
    after events ⟨result, others⟩ = ⟨result, events ++ others⟩ := rfl

@[simp] theorem after_result (events : List BlockEvent) (x : Traced α) :
    (x.after events).result = x.result := rfl

theorem pure_eq (a : α) : (pure a : Traced α) = ⟨.ok a, []⟩ := rfl

theorem ok_bind (a : α) (events : List BlockEvent) (f : α → Traced β) :
    (⟨.ok a, events⟩ : Traced α) >>= f = (f a).after events := rfl

theorem note_bind (event : BlockEvent) (f : Unit → Traced β) :
    note event >>= f = (f ()).after [event] := rfl

theorem result_bind (x : Traced α) (f : α → Traced β) :
    (x >>= f).result =
      match x.result with
      | .error e => .error e
      | .ok a => (f a).result := by
  obtain ⟨result, events⟩ := x
  cases result <;> rfl

/-! ### The readers -/

open DocTemplate.Parser (Parts eat eatTerminator openTag leaf)

/-- What reads the nodes of a part of a block, with a record. -/
abbrev PartReader := Cursor → Traced (List Node × Cursor)

/-- Read the parts of a block and its closing tag. -/
def parts (inner : PartReader) (kind : BlockKind) (s : Cursor) : Traced (Option Parts × Cursor) := do
  let (first, t) ← inner s
  match eat kind.middle t with
  | (true, u) =>
    let (second, v) ← inner u
    match eat kind.closing v with
    | (true, w) => return (some (first, some second), w)
    | (false, w) => return (none, w)
  | (false, u) =>
    match eat kind.closing u with
    | (true, v) => return (some (first, none), v)
    | (false, v) => return (none, v)

/-- Read what follows an opening tag. -/
def contents (inner : PartReader) (kind : BlockKind) (s : Cursor) :
    Traced (Option Parts × Cursor) :=
  match eatTerminator s with
  | ([], t) => parts inner kind t
  | (terminator, t) => do
    match ← parts inner kind t with
    | (none, u) => return (none, u)
    | (some (first, second), u) =>
      match eatTerminator u with
      | ([], _) =>
        return (some (Node.cons (.literal (String.ofList terminator)) first, second), u)
      | (_ :: _, v) => return (some (first, second), v)

/-- Read a block. Here events are written down. -/
def block (limit : Nat) (inner : PartReader) (kind : BlockKind) (s : Cursor) :
    Traced (Option Node × Cursor) :=
  match openTag kind s with
  | (none, t) => return (none, t)
  | (some r, t) => do
    note (.opened s.pos)
    if limit ≤ t.depth then refuse ⟨s.pos⟩
    else
      match ← contents inner kind { t with depth := t.depth + 1 } with
      | (some (first, second), u) =>
        return (some (.block kind r first second), { u with depth := u.depth - 1 })
      | (none, u) =>
        note (.abandoned s.pos)
        return (none, { u with depth := u.depth - 1 }.rewind s)

/-- Read an element of a template. -/
def element (limit : Nat) (inner : PartReader) (s : Cursor) : Traced (Option Node × Cursor) := do
  match ← block limit inner .conditional s with
  | (some node, t) => return (some node, t)
  | (none, t) =>
    match ← block limit inner .loop t with
    | (some node, u) => return (some node, u)
    | (none, u) => return leaf u

/-- Read elements, as many as there are. -/
def elements (limit : Nat) : Nat → List Node → PartReader
  | 0, nodes, s => return (nodes.reverse, s)
  | steps + 1, nodes, s => do
    match ← element limit (elements limit steps []) s with
    | (none, t) => return (nodes.reverse, t)
    | (some node, t) => elements limit steps (Node.snoc nodes node) t

/-! ### The record changes nothing -/

/-- A reader with a record returns what one without returns. -/
def PartReader.Records (traced : PartReader) (inner : Parser.PartReader) : Prop :=
  ∀ s, (traced s).result = inner s

variable {limit : Nat} {traced : PartReader} {inner : Parser.PartReader}

theorem parts_result (h : traced.Records inner) (kind : BlockKind) (s : Cursor) :
    (parts traced kind s).result = Parser.parts inner kind s := by
  rw [parts, Parser.parts, result_bind, h]
  rcases inner s with e | ⟨first, t⟩
  · rfl
  simp only
  rcases eat kind.middle t with ⟨_ | _, u⟩
  · simp only
    rcases eat kind.closing u with ⟨_ | _, v⟩ <;> rfl
  · simp only [result_bind]
    rw [h]
    rcases inner u with e | ⟨second, v⟩
    · rfl
    simp only
    rcases eat kind.closing v with ⟨_ | _, w⟩ <;> rfl

theorem contents_result (h : traced.Records inner) (kind : BlockKind) (s : Cursor) :
    (contents traced kind s).result = Parser.contents inner kind s := by
  rw [contents, Parser.contents]
  rcases eatTerminator s with ⟨_ | ⟨c, cs⟩, t⟩
  · exact parts_result h kind t
  · simp only [result_bind, parts_result h]
    rcases Parser.parts inner kind t with e | ⟨_ | ⟨first, second⟩, u⟩
    · rfl
    · rfl
    · simp only
      rcases eatTerminator u with ⟨_ | ⟨d, ds⟩, v⟩ <;> rfl

theorem block_result (h : traced.Records inner) (kind : BlockKind) (s : Cursor) :
    (block limit traced kind s).result = Parser.block limit inner kind s := by
  rw [block, Parser.block]
  rcases openTag kind s with ⟨_ | r, t⟩
  · rfl
  · simp only [note_bind, after_result]
    split
    · rfl
    · simp only [result_bind, contents_result h]
      rcases Parser.contents inner kind { t with depth := t.depth + 1 } with
        e | ⟨_ | ⟨first, second⟩, u⟩ <;> rfl

theorem element_result (h : traced.Records inner) (s : Cursor) :
    (element limit traced s).result = Parser.element limit inner s := by
  rw [element, Parser.element, result_bind, block_result h]
  rcases Parser.block limit inner .conditional s with e | ⟨_ | node, t⟩
  · rfl
  · simp only [result_bind, block_result h]
    rcases Parser.block limit inner .loop t with e | ⟨_ | node, u⟩ <;> rfl
  · rfl

/-- **A reading with a record returns what the reading without returns.** -/
theorem elements_result (limit steps : Nat) (nodes : List Node) (s : Cursor) :
    (elements limit steps nodes s).result = Parser.elements limit steps nodes s := by
  induction steps generalizing nodes s with
  | zero => rfl
  | succ steps ih =>
    rw [elements, Parser.elements, result_bind, element_result fun t => ih [] t]
    rcases Parser.element limit (Parser.elements limit steps []) s with e | ⟨_ | node, t⟩
    · rfl
    · rfl
    · exact ih _ t

end Traced

namespace Template

/-- The template that a source is written form of, with what happens to blocks when the source is
read. -/
def compileTraced (source : String) (limit : Nat) :
    Except TemplateError Template × List BlockEvent :=
  let text := source.toList
  let reading := Traced.elements limit (text.length + 1) [] (Cursor.start text)
  let compiled :=
    match reading.result with
    | .error tooDeep =>
      .error (.nestingTooDeep (Text.lineNumber (Text.splitAtOffset tooDeep.offset text).1) limit)
    | .ok (nodes, s) =>
      match s.rest with
      | [] => .ok ⟨nodes⟩
      | _ :: _ => .error (failureAt text s.furthest)
  (compiled, reading.events)

theorem compileTraced_fst (source : String) (limit : Nat) :
    (compileTraced source limit).1 = compile source limit := by
  simp only [compileTraced, Traced.elements_result]
  rfl

end Template

end DocTemplate
