import DocTemplate.Document.Basic

/-!
# Hooks

A hook changes a document before it is rendered. Two of them put values into the metadata: `defaults`
where the document has none under a key, and `overrides` in any case. A key that is present keeps its
place, and new keys come last in the order of the values.
-/

namespace DocTemplate

/-- A named change of a document, which may fail. -/
structure Hook where
  /-- The name of the hook in messages. -/
  name : String
  /-- The change. -/
  apply : Document → Except DocumentError Document

namespace Hook

/-- The name of a hook that is not given one. -/
def defaultName : String := "hook"

/-- Metadata with values under the keys that it lacks. -/
def addMissing (metadata values : Mapping) : Mapping :=
  values.entries.foldl (fun m entry => m.insertIfNew entry.1 entry.2) metadata

/-- Metadata with values under their keys. -/
def replaceAll (metadata values : Mapping) : Mapping :=
  metadata.insertMany values.entries

/-- The hook that adds values under the keys that the metadata lacks. -/
def defaults (values : Mapping) : Hook where
  name := "metadata-defaults"
  apply := fun d => .ok { d with metadata := addMissing d.metadata values }

/-- The hook that puts values under their keys, whatever the metadata holds. -/
def overrides (values : Mapping) : Hook where
  name := "metadata-overrides"
  apply := fun d => .ok { d with metadata := replaceAll d.metadata values }

/-- The failure of a hook as the failure of what runs it. A failure that names a hook already stays
as it is. -/
def failure (hook : Hook) : DocumentError → DocumentError
  | .hook name reason => .hook name reason
  | error => .hook hook.name error.message

/-- Apply a hook. -/
def run (hook : Hook) (d : Document) : Except DocumentError Document :=
  (hook.apply d).mapError hook.failure

/-- Apply hooks in order. -/
def runAll (hooks : List Hook) (d : Document) : Except DocumentError Document :=
  hooks.foldlM (fun d hook => hook.run d) d

end Hook

end DocTemplate
