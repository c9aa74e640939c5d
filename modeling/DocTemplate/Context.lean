import DocTemplate.Reference
import DocTemplate.Value

/-!
# Contexts

A template is rendered against a context, a mapping of values. A reference is looked up along its
path, and a path that leads nowhere stands for `null`. A value can be bound to a reference; that has
an effect only if all components but the last lead to a mapping.
-/

namespace DocTemplate

namespace Mapping

/-- The value at the end of a path of keys, `null` if a key is missing or a step on the way is not a
mapping. -/
def lookupPath (m : Mapping) (key : String) : List String → Value
  | [] => (m.get? key).getD .null
  | next :: rest =>
    match m.get? key with
    | some (.mapping inner) => lookupPath inner next rest
    | _ => .null

/-- The mapping with a value at the end of a path of keys; it stays as it is if a key before the
last one does not lead to a mapping. -/
def bindPath (m : Mapping) (key : String) (value : Value) : List String → Mapping
  | [] => m.insert key value
  | next :: rest =>
    match m.get? key with
    | some (.mapping inner) => m.insert key (.mapping (bindPath inner next value rest))
    | _ => m

end Mapping

/-- The values that a template is rendered against. -/
structure Context where
  /-- The outermost mapping. -/
  root : Mapping
deriving Inhabited

namespace Context

/-- The context without values. -/
def empty : Context := ⟨OrderedMap.empty⟩

/-- The context of a value: the value itself if it is a mapping, and nothing otherwise. -/
def ofValue : Value → Context
  | .mapping fields => ⟨fields⟩
  | _ => empty

/-- The value that a reference leads to. -/
def resolve (c : Context) (r : Reference) : Value :=
  Mapping.lookupPath c.root r.first r.rest

/-- The context with a value in the place that a reference leads to. -/
def bind (c : Context) (r : Reference) (value : Value) : Context :=
  ⟨Mapping.bindPath c.root r.first value r.rest⟩

/-- The value under an outermost key. -/
def get? (c : Context) (key : String) : Option Value :=
  c.root.get? key

/-- The context with a value under an outermost key. -/
def insert (c : Context) (key : String) (value : Value) : Context :=
  ⟨c.root.insert key value⟩

/-- Equality of contexts up to the order of entries. -/
def agrees (a b : Context) : Bool :=
  (Value.mapping a.root).agrees (Value.mapping b.root)

end Context

end DocTemplate
