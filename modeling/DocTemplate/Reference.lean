/-!
# References

A reference is a dotted path into a mapping of values: at least one component, each a key of the
mapping that the components before it lead to. The words that structure a template are reserved as
first components of a variable.
-/

namespace DocTemplate

/-- A path of one or more keys. -/
structure Reference where
  /-- The key in the outermost mapping. -/
  first : String
  /-- The keys after it, outermost first. -/
  rest : List String
deriving DecidableEq, Inhabited

namespace Reference

/-- The words that no variable may begin with. -/
def reservedWords : List String :=
  ["if", "endif", "else", "for", "endfor", "sep"]

/-- The components in order. -/
def components (r : Reference) : List String :=
  r.first :: r.rest

/-- The reference with some components, if there is at least one. -/
def ofComponents? : List String → Option Reference
  | [] => none
  | first :: rest => some ⟨first, rest⟩

/-- The reference to a key of the outermost mapping, whatever characters the key has. -/
def key (name : String) : Reference :=
  ⟨name, []⟩

/-- All components but the last. -/
def parents (r : Reference) : List String :=
  r.components.dropLast

/-- The last component. -/
def last (r : Reference) : String :=
  r.components.getLast (List.cons_ne_nil _ _)

/-- Whether the first component is a reserved word. -/
def isReserved (r : Reference) : Bool :=
  reservedWords.contains r.first

/-- The components with dots between them. -/
def display (r : Reference) : String :=
  ".".intercalate r.components

theorem ofComponents?_components (r : Reference) : ofComponents? r.components = some r := rfl

end Reference

end DocTemplate
