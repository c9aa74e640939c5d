import DocTemplate.Command.Config
import DocTemplate.Command.FileTree
import DocTemplate.Command.Help
import DocTemplate.Json.Printer
import DocTemplate.Json.Value
import DocTemplate.Template.Error
import DocTemplate.Yaml.Printer

/-!
# Running a command

A run of the program depends on the files, the environment and the words of the command line. It ends
with a command that is done, with a cause for which a command failed, or with a cause for which there
is no command. The last thing that a command does is to print a text or to write it to a file.

What is seen of a run on a file tree are its ending, all that it has printed by then, and the files
(`FileTree.observe`).
-/

namespace DocTemplate

/-- The causes for which a command fails. -/
inductive CommandError where
  /-- The configuration is not read. -/
  | configFile (error : FileError)
  /-- There is no configuration. -/
  | config (error : ConfigError)
  /-- The variables are not well formed. -/
  | entries (error : VariableError)
  /-- The template at a path is not read. -/
  | templateFile (path : String) (error : FileError)
  /-- The template does not compile. -/
  | template (error : TemplateError)
  /-- The template at a path that is checked does not compile. -/
  | invalidTemplate (path : String) (error : TemplateError)
  /-- The document at a path is not read. -/
  | documentFile (path : String) (error : FileError)
  /-- The document at a path is not converted. -/
  | conversion (path : String) (error : DocumentError)
  /-- The document at a path makes no metadata and body. -/
  | document (path : String) (error : DocumentError)
  /-- The document makes no context. -/
  | context (error : DocumentError)
  /-- The output is not written. -/
  | outputFile (path : String) (error : FileError)

/-- The wording of a cause. -/
def CommandError.message : CommandError → String
  | configFile error => error.message
  | config error => error.message
  | entries error => error.message
  | templateFile path error => "Failed to read template '" ++ path ++ "': " ++ error.message
  | template error => "Failed to compile template: " ++ error.message
  | invalidTemplate path error => "Template '" ++ path ++ "' is invalid: " ++ error.message
  | documentFile path error => "Failed to read document '" ++ path ++ "': " ++ error.message
  | conversion path error => "Failed to convert '" ++ path ++ "': " ++ error.message
  | document path error => "Failed to parse '" ++ path ++ "': " ++ error.message
  | context error => error.message
  | outputFile path error => "Failed to write output file '" ++ path ++ "': " ++ error.message

/-- What a run finds about the user who started it. -/
structure Environment where
  /-- The text of a variable that is set. -/
  text? : String → Option String
  /-- The home directory that the list of all users has for this one. -/
  account : Option String

namespace Environment

instance : CoeFun Environment fun _ => String → Option String := ⟨text?⟩

/-- Variables make the environment of a user who is in no list. -/
instance : Coe (String → Option String) Environment := ⟨fun text? => ⟨text?, none⟩⟩

/-- The home directory: that of the variable for it, or else that of the list. An empty one is none. -/
def home? (env : Environment) : Option String :=
  (env "HOME").filter (!·.isEmpty) <|> env.account.filter (!·.isEmpty)

end Environment

/-- The text of a context in a layout. -/
def ContextFormat.print : ContextFormat → Context → String
  | json, c => c.toJson.pretty
  | yaml, c => c.toYaml

variable {m : Type → Type} [Monad m]

/-- What an attempt gives, for want of which a command fails. -/
def attempt {ε α : Type} (cause : ε → CommandError) (result : Except ε α) :
    ExceptT CommandError m α :=
  ExceptT.mk (pure (result.mapError cause))

namespace Host

/-- The text of a file, for want of which a command fails. -/
def require (host : Host m) (cause : FileError → CommandError) (path : String) :
    ExceptT CommandError m String := do
  attempt cause (← host.read path)

/-- The writing of a file, for want of which a command fails. -/
def store (host : Host m) (cause : FileError → CommandError) (path text : String) :
    ExceptT CommandError m Unit := do
  attempt cause (← host.write path text)

/-- The first of some paths at which something is. -/
def firstPresent (host : Host m) : List String → m (Option String)
  | [] => return none
  | path :: rest => do if ← host.present path then return some path else host.firstPresent rest

end Host

/-! ### Configuration -/

/-- The paths at which a configuration is looked for if none is given. -/
def Config.paths (env : Environment) : List String :=
  ["quill.yaml", "quill.yml", ".quill.yaml", ".quill.yml"] ++
    match env.home? with
    | none => []
    | some home => [home ++ "/.quill/config.yaml"]

/-- The configuration of a run. A path at which nothing is gives no settings. -/
def Config.find (host : Host m) (env : Environment) (path : Option String) :
    ExceptT CommandError m Config := do
  let paths :=
    match path with
    | some path => [path]
    | none => Config.paths env
  let text ←
    match ← host.firstPresent paths with
    | none => pure none
    | some path => some <$> host.require .configFile path
  attempt .config (Config.load text env.text?)

/-! ### The commands -/

namespace Command

/-- The template at a path, or the one that holds the body and nothing else. -/
def templateAt (host : Host m) (k : Converter) (path : Option String) :
    ExceptT CommandError m Template :=
  match path with
  | none => return k.bodyTemplate
  | some path => do
    let source ← host.require (.templateFile path) path
    attempt .template (Template.compile source k.limit)

/-- The output for a document with a template. -/
def renderText (host : Host m) (c : Config) (input : String) (template : Option String)
    (entries : List String) (bodyKey : Option String) : ExceptT CommandError m String := do
  let k ← attempt .entries (c.converter entries bodyKey)
  let t ← templateAt host k (template <|> c.defaultTemplate)
  let source ← host.require (.documentFile input) input
  attempt (.conversion input) (k.convert source t)

/-- What is said about a template that compiles. -/
def report (path : String) (t : Template) : String :=
  "✓ Template '" ++ path ++ "' is valid\n  Nodes: " ++ Nat.repr t.nodes.length ++
    "\n  Nesting depth: " ++ Nat.repr t.depth ++ "\n"

/-- The output of a check. -/
def checkText (host : Host m) (c : Config) (path : String) :
    ExceptT CommandError m String := do
  let source ← host.require (.templateFile path) path
  let t ← attempt (.invalidTemplate path) (Template.compile source c.maxNesting)
  return report path t

/-- The context of a document. -/
def contextOf (host : Host m) (c : Config) (input : String) (entries : List String)
    (bodyKey : Option String) : ExceptT CommandError m Context := do
  let k ← attempt .entries (c.converter entries bodyKey)
  let source ← host.require (.documentFile input) input
  let d ← attempt (.document input) (k.parse source)
  attempt .context (k.context d)

/-- Run a command. -/
def run (host : Host m) (c : Config) : Command → ExceptT CommandError m Unit
  | render input template entries output bodyKey => do
    let text ← renderText host c input template entries bodyKey
    match output with
    | none => host.print text
    | some path => host.store (.outputFile path) path text
  | check template => do
    host.print (← checkText host c template)
  | context input entries format bodyKey => do
    host.print (format.print (← contextOf host c input entries bodyKey) ++ "\n")

end Command

/-! ### Whole runs -/

/-- How a run ends. -/
inductive Ending where
  /-- A command is done. -/
  | done
  /-- A command failed. -/
  | failed (error : CommandError)
  /-- There is no command. -/
  | refused (refusal : Refusal)

namespace Ending

/-- How a run ends in which a command is run. -/
def ofResult : Except CommandError Unit → Ending
  | .ok () => done
  | .error e => failed e

/-- The code with which the program ends. -/
def exitCode : Ending → Nat
  | done => 0
  | failed _ => 1
  | refused refusal => if refusal.isRequest then 0 else 2

end Ending

/-- Run what a command line says. -/
def Arguments.run (host : Host m) (env : Environment) (a : Arguments) : m Ending := do
  let result ← ExceptT.run (ε := CommandError) do
    let c ← Config.find host env a.config
    a.command.run host c
  return .ofResult result

/-- Run the program on the words of a command line. A request is answered at once. -/
def runWords (host : Host m) (env : Environment) (words : List String) : m Ending :=
  match Arguments.read words with
  | .error refusal => do
    host.print refusal.answer
    return .refused refusal
  | .ok a => a.run host env

/-! ### Runs on a file tree -/

/-- What is seen of a run. -/
structure Outcome where
  /-- How it ends. -/
  ending : Ending
  /-- What it has printed by then. -/
  output : String

namespace Outcome

/-- A command is done and has printed a text. -/
@[match_pattern]
def done (output : String) : Outcome := ⟨.done, output⟩

/-- A command failed, whatever it has printed. -/
@[match_pattern]
def failed {output : String} (error : CommandError) : Outcome := ⟨.failed error, output⟩

/-- There is no command, whatever has been printed. -/
@[match_pattern]
def refused {output : String} (refusal : Refusal) : Outcome := ⟨.refused refusal, output⟩

/-- The code with which the program ends. -/
def exitCode (o : Outcome) : Nat := o.ending.exitCode

end Outcome

namespace FileTree

/-- What is seen of a run that begins with a tree and nothing printed, and the tree that it leaves. -/
def observe (t : FileTree) (x : StateM World Ending) : Outcome × FileTree :=
  let (ending, s) := x.run ⟨t, ""⟩
  (⟨ending, s.output⟩, s.files)

/-- Run the program on a file tree. -/
def run (t : FileTree) (env : Environment) (words : List String) : Outcome × FileTree :=
  t.observe (runWords World.host env words)

end FileTree

end DocTemplate
