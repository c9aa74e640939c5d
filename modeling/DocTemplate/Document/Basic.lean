import DocTemplate.Template.Error
import DocTemplate.Value

/-!
# Documents

A document is metadata, a mapping of values, and a body, a text. A `DocumentError` says why a source
does not make a document or a document no output.
-/

namespace DocTemplate

/-- A document. -/
structure Document where
  /-- What is said about the document. -/
  metadata : Mapping
  /-- The text of the document. -/
  body : String
deriving Inhabited

/-- What front matter can be instead of a mapping. -/
inductive FoundKind where
  /-- A truth value. -/
  | boolean
  /-- A text or a number. -/
  | scalar
  /-- A sequence. -/
  | sequence
deriving DecidableEq

/-- The name of a kind with its article. -/
def FoundKind.name : FoundKind → String
  | boolean => "a boolean"
  | scalar => "a scalar"
  | sequence => "a sequence"

/-- The causes for which a conversion fails. -/
inductive DocumentError where
  /-- The front matter is not YAML. -/
  | frontMatter
  /-- The front matter is YAML, but not a mapping. -/
  | frontMatterNotMapping (found : FoundKind)
  /-- The front matter has a beginning and no end. -/
  | unterminatedFrontMatter
  /-- The body was refused. -/
  | bodyRender (reason : String)
  /-- A hook failed. -/
  | hook (name : String) (reason : String)
  /-- A template does not compile. -/
  | template (error : TemplateError)

namespace DocumentError

/-- The wording of a cause. What is wrong with the YAML of front matter is not told. -/
def message : DocumentError → String
  | frontMatter => "Failed to parse front matter"
  | frontMatterNotMapping found => "Front matter must be a mapping, found " ++ found.name
  | unterminatedFrontMatter => "Front matter is not closed with '---' or '...'"
  | bodyRender reason => "Body rendering failed: " ++ reason
  | hook name reason => "Hook '" ++ name ++ "' failed: " ++ reason
  | template error => error.message

end DocumentError

end DocTemplate
