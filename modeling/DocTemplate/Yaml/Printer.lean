import DocTemplate.Context
import DocTemplate.Yaml.Page

/-!
# Writing values as YAML

A value is written with its collections in block style, sequences in a field without indentation of
their own, and empty collections as empty brackets. A key that has several lines or is very long
stands after a question mark, with its value on the next line.
-/

namespace DocTemplate.Yaml.Page

/-- Where a value is written. -/
structure Place where
  /-- The column of the collection around it, if there is one. -/
  column : Option Nat
  /-- Whether that collection is a mapping. -/
  inField : Bool

/-- The number of columns by which a collection is indented. -/
def indentation : Nat := 2

namespace Place

/-- The column of a collection at a place. -/
def inner (place : Place) : Nat :=
  match place.column with
  | none => 0
  | some column => column + indentation

/-- The column of the items of a sequence at a place on a page. In a field, right after its key, they
stand below the key. -/
def items (place : Place) (p : Page) : Nat :=
  match place.column with
  | none => 0
  | some column => if place.inField && !p.indented then column else column + indentation

/-- The column of further lines of a scalar at a place. -/
def lines (place : Place) : Nat :=
  match place.column with
  | none => indentation
  | some column => column + indentation

end Place

/-- Write the key of a field that stands at a column, up to its value. -/
def key (p : Page) (column : Nat) (text : String) : Page :=
  let place : Place := ⟨some column, true⟩
  let p := p.indent column
  if isSimpleKey text then (p.scalar place.lines true text).indicator ":" false false false
  else
    let p := (p.indicator "?" true false true).scalar place.lines false text
    (p.indent column).indicator ":" true false true

mutual

/-- Write a value. -/
def value (p : Page) (place : Place) : Value → Page
  | .null => p.plain "null"
  | .boolean truth => p.plain (if truth then "true" else "false")
  | .scalar text => p.scalar place.lines false text
  | .sequence [] => (p.indicator "[" true true false).indicator "]" false false false
  | .sequence (item :: rest) =>
    let column := place.items p
    let p := (p.indent column).indicator "-" true false true
    items (value p ⟨some column, false⟩ item) column rest
  | .mapping ⟨[]⟩ =>
    (p.indicator "\x7b" true true false).indicator "\x7d" false false false
  | .mapping ⟨(name, field) :: rest⟩ =>
    let column := place.inner
    fields (value (p.key column name) ⟨some column, true⟩ field) column rest

/-- Write further items of a sequence that stands at a column. -/
def items (p : Page) (column : Nat) : List Value → Page
  | [] => p
  | item :: rest =>
    let p := (p.indent column).indicator "-" true false true
    items (value p ⟨some column, false⟩ item) column rest

/-- Write further fields of a mapping that stands at a column. -/
def fields (p : Page) (column : Nat) : List (String × Value) → Page
  | [] => p
  | (name, field) :: rest =>
    fields (value (p.key column name) ⟨some column, true⟩ field) column rest

end

end DocTemplate.Yaml.Page

namespace DocTemplate

/-- The text of a value as a YAML document. -/
def Value.toYaml (v : Value) : String :=
  ((Yaml.Page.blank.value ⟨none, false⟩ v).indent 0).text

/-- The text of a context as a YAML document. -/
def Context.toYaml (c : Context) : String :=
  (Value.mapping c.root).toYaml

end DocTemplate
