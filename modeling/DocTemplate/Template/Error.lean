/-!
# Why a text is not a template

Three causes, each with the line on which it shows: something unexpected, the end of the text where
something is missing, and blocks nested deeper than allowed.
-/

namespace DocTemplate

/-- The causes for which a text is not a template. -/
inductive TemplateError where
  /-- What stands at the place found, cut short, cannot stand there. -/
  | unexpected (line : Nat) (excerpt : String)
  /-- The text ends where something is missing. -/
  | unexpectedEnd (line : Nat)
  /-- A block is opened with as many blocks open as may be. -/
  | nestingTooDeep (line limit : Nat)
deriving DecidableEq

namespace TemplateError

/-- The line a cause shows on, counted from one. -/
def line : TemplateError → Nat
  | unexpected line _ => line
  | unexpectedEnd line => line
  | nestingTooDeep line _ => line

/-- What was unexpected, empty for the other causes. -/
def excerpt : TemplateError → String
  | unexpected _ excerpt => excerpt
  | _ => ""

/-- Whether the text ended too early. -/
def isAtEnd : TemplateError → Bool
  | unexpectedEnd _ => true
  | _ => false

/-- The wording of a cause. -/
def message : TemplateError → String
  | unexpected line excerpt =>
    "Template syntax error on line " ++ toString line ++ ": unexpected \"" ++ excerpt ++ "\""
  | unexpectedEnd line =>
    "Template syntax error on line " ++ toString line ++ ": unexpected end of template"
  | nestingTooDeep line limit =>
    "Template nesting on line " ++ toString line ++ " exceeds the limit of " ++ toString limit ++
      " levels"

end TemplateError

end DocTemplate
