import DocTemplate.Yaml.Event
import DocTemplate.Yaml.Token.Scan

/-!
# The tree of a YAML document

The events of a document put together to a tree. An alias keeps the number of the anchor it names. An
anchor has the number of different names that were in use when it was set, so that one that takes up
a name in use can have the number of another; an alias then stands for the node whose anchor with its
number comes last in the document.
-/

namespace DocTemplate.Yaml

/-- A node of a document. -/
inductive Tree where
  /-- A scalar. -/
  | scalar (tag : Option Tag) (text : String) (style : ScalarStyle)
  /-- Nodes in order. -/
  | sequence (tag : Option Tag) (items : List Tree)
  /-- Pairs of a key and a value, in order. -/
  | mapping (tag : Option Tag) (entries : List (Tree × Tree))
  /-- The repetition of the node with an anchor of some number. -/
  | alias (anchor : Nat)

instance : Inhabited Tree := ⟨.alias 0⟩

/-- Whether a node is a repetition. -/
def Tree.isAlias : Tree → Bool
  | .alias _ => true
  | _ => false

/-- A document. -/
structure Document where
  /-- The outermost node, unless the text is empty. -/
  root : Option Tree
  /-- The nodes with an anchor: its number, the number of the event that begins the node, and the
  node. -/
  anchored : List (Nat × Nat × Tree)
  /-- The number of events. -/
  eventCount : Nat

namespace Document

/-- Of two nodes with an anchor the one that begins later. -/
def later (a b : Nat × Nat × Tree) : Nat × Nat × Tree :=
  if a.2.1 < b.2.1 then b else a

/-- The node that an alias stands for. -/
def target? (d : Document) (anchor : Nat) : Option Tree :=
  match d.anchored.filter fun entry => entry.1 == anchor with
  | [] => none
  | entry :: rest => some (rest.foldl later entry).2.2

end Document

/-! ### From events to a tree -/

/-- What is known of an anchor when its node begins: its number and the number of the event. -/
abbrev AnchorMark := Option (Nat × Nat)

/-- A collection that is open. -/
inductive TreeFrame where
  /-- A sequence with its items, last first. -/
  | sequence (tag : Option Tag) (mark : AnchorMark) (items : List Tree)
  /-- A mapping with its entries, last first, and the key of the next if it is complete. -/
  | mapping (tag : Option Tag) (mark : AnchorMark) (entries : List (Tree × Tree))
      (key : Option Tree)

/-- The state of the putting together. -/
structure TreeBuilding where
  /-- The collections that are open, innermost first. -/
  open_ : List TreeFrame
  /-- The numbers of the anchors by name, latest first. -/
  names : List (String × Nat)
  /-- The number of different names. -/
  nameCount : Nat
  /-- The complete nodes with an anchor. -/
  anchored : List (Nat × Nat × Tree)
  /-- The number of events so far. -/
  eventCount : Nat
  /-- The outermost node, once it is complete. -/
  root : Option Tree

namespace TreeBuilding

/-- The state before any event. -/
def start : TreeBuilding := ⟨[], [], 0, [], 0, none⟩

/-- Note the anchor of a node that begins. -/
def mark (b : TreeBuilding) (p : Properties) : TreeBuilding × AnchorMark :=
  match p.anchor with
  | none => (b, none)
  | some name =>
    let number := b.nameCount
    let isNew := (b.names.lookup name).isNone
    ({ b with names := (name, number) :: b.names,
              nameCount := if isNew then number + 1 else number },
      some (number, b.eventCount))

/-- Put a complete node where it belongs. -/
def add (b : TreeBuilding) (mark : AnchorMark) (tree : Tree) : TreeBuilding :=
  let b :=
    match mark with
    | none => b
    | some (number, event) => { b with anchored := (number, event, tree) :: b.anchored }
  match b.open_ with
  | [] => { b with root := some tree }
  | .sequence tag mark items :: outer =>
    { b with open_ := .sequence tag mark (tree :: items) :: outer }
  | .mapping tag mark entries none :: outer =>
    { b with open_ := .mapping tag mark entries (some tree) :: outer }
  | .mapping tag mark entries (some key) :: outer =>
    { b with open_ := .mapping tag mark ((key, tree) :: entries) none :: outer }

/-- Take in an event. An alias must name an anchor that was set before. -/
def take (b : TreeBuilding) : Event → Option TreeBuilding
  | .alias name => (b.names.lookup name).map fun number => b.add none (.alias number)
  | .scalar p text style =>
    let (b, mark) := b.mark p
    some (b.add mark (.scalar p.tag text style))
  | .sequenceStart p =>
    let (b, mark) := b.mark p
    some { b with open_ := .sequence p.tag mark [] :: b.open_ }
  | .mappingStart p =>
    let (b, mark) := b.mark p
    some { b with open_ := .mapping p.tag mark [] none :: b.open_ }
  | .sequenceEnd =>
    match b.open_ with
    | .sequence tag mark items :: outer =>
      some ({ b with open_ := outer }.add mark (.sequence tag items.reverse))
    | _ => none
  | .mappingEnd =>
    match b.open_ with
    | .mapping tag mark entries none :: outer =>
      some ({ b with open_ := outer }.add mark (.mapping tag entries.reverse))
    | _ => none

/-- Take in an event and count it. -/
def step (b : TreeBuilding) (event : Event) : Option TreeBuilding :=
  (b.take event).map fun b => { b with eventCount := b.eventCount + 1 }

end TreeBuilding

/-- The document with some events. -/
def Document.ofEvents? (events : List Event) : Option Document := do
  let b ← events.foldlM TreeBuilding.step .start
  return ⟨b.root, b.anchored, b.eventCount⟩

/-- The only document of a text; nothing if the text is not YAML or holds several. -/
def Document.ofText? (text : String) : Option Document := do
  Document.ofEvents? (← Event.ofTokens? (← Token.ofText? text))

/-! ### Reading nodes -/

/-- A reading of a document: it may fail, and it counts the aliases that it follows. -/
abbrev Decoding (α : Type) := StateT Nat Option α

/-- The depth to which collections may be nested. -/
def maxNesting : Nat := 128

/-- How many aliases may be followed for each event. -/
def aliasesPerEvent : Nat := 100

namespace Document

/-- A node that is not an alias: the node itself, or the one that it stands for. -/
def follow (d : Document) (tree : Tree) : Decoding Tree :=
  match tree with
  | .alias anchor => do
    let count ← get
    if d.eventCount * aliasesPerEvent ≤ count then failure
    set (count + 1)
    StateT.lift (d.target? anchor)
  | tree => pure tree

/-- The text of a scalar as it is written. -/
def scalarText (d : Document) (tree : Tree) : Decoding String := do
  match ← d.follow tree with
  | .scalar _ text _ => return text
  | _ => failure

/-- The entries of a mapping. A scalar without any characters, quotes included, counts as a mapping
without entries. -/
def entries (d : Document) (tree : Tree) : Decoding (List (Tree × Tree)) := do
  match ← d.follow tree with
  | .mapping _ entries => return entries
  | .scalar _ text style => if text.isEmpty ∧ style = .plain then return [] else failure
  | _ => failure

end Document

end DocTemplate.Yaml
