import DocTemplate.Document.Converter

/-!
# Variables of the command line

A variable is given as a text `key=value`, cut at the first equals sign. If a key is given twice, the
later value counts; the order of the variables is that of their keys.
-/

namespace DocTemplate

/-- The causes for which a text is no variable. -/
inductive VariableError where
  /-- There is no equals sign. -/
  | noValue (entry : String)
  /-- There is nothing before the equals sign. -/
  | noName (entry : String)
deriving DecidableEq

/-- The wording of a cause. -/
def VariableError.message : VariableError → String
  | noValue entry => "Invalid variable format '" ++ entry ++ "'. Expected 'key=value'"
  | noName entry => "Variable '" ++ entry ++ "' has an empty name"

namespace Variables

/-- The key and the value that a text gives. -/
def ofEntry (entry : String) : Except VariableError (String × String) :=
  let chars := entry.toList
  match chars.dropWhile (· != '=') with
  | [] => .error (.noValue entry)
  | _ :: value =>
    match chars.takeWhile (· != '=') with
    | [] => .error (.noName entry)
    | key => .ok (String.ofList key, String.ofList value)

/-- The variables that texts give, or what is wrong with the first that gives none. -/
def ofEntries (entries : List String) : Except VariableError (OrderedMap String) := do
  return OrderedMap.ofList (← entries.mapM ofEntry)

/-- Texts as values, ordered by key. -/
def toMapping (texts : OrderedMap String) : Mapping :=
  texts.sorted.map .scalar

end Variables

end DocTemplate
