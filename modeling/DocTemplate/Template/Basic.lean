import DocTemplate.Reference

/-!
# Templates

A template is a list of nodes: literal text, variables, and two kinds of blocks. A conditional block
has a branch for a reference that counts as true and possibly one for a reference that does not; a
loop block has a body and possibly a separator. Both kinds have one shape, a reference with a first
and perhaps a second list of nodes, so that what does not depend on their meaning is said once.
-/

namespace DocTemplate

/-- The two kinds of blocks. -/
inductive BlockKind where
  /-- `$if(…)$ … $else$ … $endif$` -/
  | conditional
  /-- `$for(…)$ … $sep$ … $endfor$` -/
  | loop
deriving DecidableEq

/-- A piece of a template. -/
inductive Node where
  /-- Text that stands for itself. -/
  | literal (text : String)
  /-- The text of the value that a reference leads to. -/
  | interpolation (reference : Reference)
  /-- A block. For a conditional the first nodes are used if the reference counts as true and the
  second if it does not; for a loop the first are its body and the second go between two items. -/
  | block (kind : BlockKind) (reference : Reference) (first : List Node)
      (second : Option (List Node))

namespace BlockKind

/-- What stands before the reference of a block. -/
def opening : BlockKind → List Char
  | conditional => ['$', 'i', 'f', '(']
  | loop => ['$', 'f', 'o', 'r', '(']

/-- What stands between the two parts of a block. -/
def middle : BlockKind → List Char
  | conditional => ['$', 'e', 'l', 's', 'e', '$']
  | loop => ['$', 's', 'e', 'p', '$']

/-- What ends a block. -/
def closing : BlockKind → List Char
  | conditional => ['$', 'e', 'n', 'd', 'i', 'f', '$']
  | loop => ['$', 'e', 'n', 'd', 'f', 'o', 'r', '$']

end BlockKind

namespace Node

mutual

/-- How deep blocks are nested in a node. -/
def depth : Node → Nat
  | literal _ => 0
  | interpolation _ => 0
  | block _ _ first none => 1 + depthAll first
  | block _ _ first (some second) => 1 + max (depthAll first) (depthAll second)

/-- How deep blocks are nested in nodes. -/
def depthAll : List Node → Nat
  | [] => 0
  | node :: rest => max (depth node) (depthAll rest)

end

/-- A node in front of others, a literal joining a literal that follows it. -/
def cons : Node → List Node → List Node
  | literal text, literal next :: rest => literal (text ++ next) :: rest
  | node, rest => node :: rest

/-- A node after others that are given last first, a literal joining the literal before it. -/
def snoc : List Node → Node → List Node
  | literal previous :: before, literal text => literal (previous ++ text) :: before
  | before, node => node :: before

end Node

/-- A compiled template. -/
structure Template where
  /-- The outermost nodes in order. -/
  nodes : List Node

namespace Template

/-- The number of levels that blocks may be nested if nothing else is asked for. -/
def defaultLimit : Nat := 64

/-- How deep blocks are nested in a template. -/
def depth (t : Template) : Nat :=
  Node.depthAll t.nodes

end Template

end DocTemplate
