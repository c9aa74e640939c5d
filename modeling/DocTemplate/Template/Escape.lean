/-!
# Doubled dollars

A doubled dollar in a template stands for one dollar. A text in which no dollar is left once the
doubled ones are taken out, from left to right, uses nothing of the template language but these.
-/

namespace DocTemplate.Template

/-- A text without its doubled dollars. -/
def dropEscapes : List Char → List Char
  | '$' :: '$' :: rest => dropEscapes rest
  | c :: rest => c :: dropEscapes rest
  | [] => []

/-- Whether a text uses the template language beyond doubled dollars. -/
def hasConstructs (text : String) : Bool :=
  (dropEscapes text.toList).contains '$'

end DocTemplate.Template
