import DocTemplate.Document.FrontMatter
import DocTemplate.Document.Hook
import DocTemplate.Template.Render

/-!
# Converting a source

A converter makes a document of a source, changes it by its hooks, renders the body, and renders a
template against the metadata with the body added. Without a template of its own it uses the one that
holds the body and nothing else.
-/

namespace DocTemplate

/-- How sources are converted. -/
structure Converter where
  /-- What makes a document of a source. -/
  extract : String → Except DocumentError Document
  /-- What renders the body. -/
  renderBody : String → Except DocumentError String
  /-- What changes the document, in order. -/
  hooks : List Hook
  /-- The key under which the context holds the body. -/
  bodyKey : String
  /-- The number of levels that blocks of a template may be nested. -/
  limit : Nat

namespace Converter

/-- The key under which a context holds the body if no other is given. -/
def defaultBodyKey : String := "body"

/-- The converter that reads front matter and leaves everything else as it is. -/
def standard : Converter where
  extract := Document.ofSource
  renderBody := .ok
  hooks := []
  bodyKey := defaultBodyKey
  limit := Template.defaultLimit

/-- The template that holds the body and nothing else. The key is not put into the source of a
template, for not every key could stand there. -/
def bodyTemplate (k : Converter) : Template :=
  ⟨[.interpolation (Reference.key k.bodyKey)]⟩

/-- The document of a source after the hooks. -/
def parse (k : Converter) (source : String) : Except DocumentError Document := do
  Hook.runAll k.hooks (← k.extract source)

/-- The context of a document: its metadata, with the rendered body under the key for it. -/
def context (k : Converter) (d : Document) : Except DocumentError Context := do
  return ⟨d.metadata.insert k.bodyKey (.scalar (← k.renderBody d.body))⟩

/-- The output for a source with a template. -/
def convert (k : Converter) (source : String) (t : Template) : Except DocumentError String := do
  let d ← k.parse source
  let c ← k.context d
  return (t.render c).1

/-- The output for a source with the template that has a source of its own. -/
def convertWith (k : Converter) (source templateSource : String) :
    Except DocumentError String := do
  let t ← (Template.compile templateSource k.limit).mapError .template
  k.convert source t

end Converter

end DocTemplate
