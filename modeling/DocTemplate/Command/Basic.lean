/-!
# Commands

There are three commands: a document is rendered through a template, a template is checked, or the
context of a document is printed. `Arguments` is what a command line says: a command and the settings
that all commands share. `ArgumentsError` says why a command line has no command to run; to ask for
help is one of the causes. A `Refusal` says also what the words are about that were being read.
-/

namespace DocTemplate

/-- The layouts in which a context is printed. -/
inductive ContextFormat where
  /-- JSON over several lines. -/
  | json
  /-- YAML in block style. -/
  | yaml
deriving DecidableEq

/-- The layout with a name. -/
def ContextFormat.ofName? : String → Option ContextFormat
  | "json" => some json
  | "yaml" => some yaml
  | _ => none

/-- What is to be done. -/
inductive Command where
  /-- Render the document in a file through a template, into a file if there is a path for it. -/
  | render (input : String) (template : Option String) (entries : List String)
      (output : Option String) (bodyKey : Option String)
  /-- Check the template in a file. -/
  | check (template : String)
  /-- Print the context of the document in a file. -/
  | context (input : String) (entries : List String) (format : ContextFormat)
      (bodyKey : Option String)
deriving DecidableEq

/-- What a command line says. -/
structure Arguments where
  /-- What is to be done. -/
  command : Command
  /-- Whether more is logged. -/
  verbose : Bool
  /-- The path of the configuration. -/
  config : Option String
  /-- Whether what is logged has no colours. -/
  noColor : Bool
deriving DecidableEq

/-- The causes for which a command line has no command to run. -/
inductive ArgumentsError where
  /-- There is not a word in it. -/
  | nothingGiven
  /-- There are settings, but no command. -/
  | missingCommand
  /-- A word stands where a command should, and is none. -/
  | unknownCommand
  /-- The path that the command needs is missing. -/
  | missingOperand
  /-- There is no such option, or no place for another path. -/
  | unknownArgument
  /-- The value of an option is missing, or is none that the option has. -/
  | invalidValue
  /-- A flag has a value. -/
  | unexpectedValue
  /-- What may be given once is given twice. -/
  | repeated
  /-- Help is asked for. -/
  | help
  /-- The version is asked for. -/
  | version
deriving DecidableEq

namespace ArgumentsError

/-- Whether the command line asks for something that can be answered. -/
def isRequest (e : ArgumentsError) : Bool :=
  e = help || e = version

end ArgumentsError

/-! ### Refusals -/

/-- The names of commands. -/
inductive CommandName where
  /-- Render a document. -/
  | render
  /-- Check a template. -/
  | check
  /-- Print a context. -/
  | context
deriving DecidableEq

namespace CommandName

/-- The commands, in the order in which help names them. -/
def all : List CommandName := [render, check, context]

/-- The word for a command. -/
def word : CommandName → String
  | render => "render"
  | check => "check"
  | context => "context"

/-- The command that a word is. -/
def ofWord? (word : String) : Option CommandName :=
  all.find? fun name => name.word = word

end CommandName

/-- What words of a command line can be about. -/
inductive Topic where
  /-- The program. -/
  | program
  /-- One of the commands. -/
  | command (name : CommandName)
  /-- The word that asks for help in the place of a command. -/
  | help
deriving DecidableEq

namespace Topic

/-- The word that asks for help in the place of a command. -/
def helpWord : String := "help"

/-- What a word is about that stands where a command does. -/
def ofWord? (word : String) : Option Topic :=
  if word = helpWord then some help else (CommandName.ofWord? word).map command

end Topic

/-- Why a command line has no command to run, and what the words are about that say so. -/
structure Refusal where
  /-- The cause. -/
  cause : ArgumentsError
  /-- What the words are about. -/
  topic : Topic
deriving DecidableEq

/-- Whether the command line asks for something that can be answered. -/
def Refusal.isRequest (r : Refusal) : Bool :=
  r.cause.isRequest

end DocTemplate
