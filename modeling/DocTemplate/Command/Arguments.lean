import DocTemplate.Command.Basic

/-!
# Reading a command line

The words of a command line are read from left to right. A word that begins with a dash is made of
options, unless it is the dash alone; the first word that is not is the command, and the words after
it are the command's own. An option that comes with a value takes it from its own word, after an equals
sign or without one, or else from the next word. The word `--` ends the options.

What a word gives is settled, that is, looked at for a missing value, a repetition or a value that
cannot be, only once the next option or path is there, or the end. A word that is no option at all is
therefore refused before what stands in front of it is.

Words are refused together with what they are about (`Topic.reading`): the words of a command with the
command, and those before it with the program. A wish for help is answered accordingly.
-/

namespace DocTemplate

/-! ### Options -/

/-- What the words of a command line can give. -/
inductive Item where
  /-- The wish for help. -/
  | help
  /-- The wish for the version. -/
  | version
  /-- That more is logged. -/
  | verbose
  /-- That what is logged has no colours. -/
  | noColor
  /-- The path of the configuration. -/
  | config
  /-- The path of a template. -/
  | template
  /-- A text that gives a variable. -/
  | entry
  /-- The path of the output. -/
  | output
  /-- The key of the body. -/
  | bodyKey
  /-- The layout of a context. -/
  | format
  /-- The path that a command is about, which has no option before it. -/
  | operand
deriving DecidableEq

namespace Item

/-- Whether the item comes with a value. -/
def hasValue : Item → Bool
  | help | version | verbose | noColor => false
  | _ => true

/-- Whether the item may be given more than once. -/
def repeats : Item → Bool
  | entry => true
  | _ => false

/-- Whether a text can be the item's value: a path is not empty, and a layout has one of its names. -/
def admits : Item → String → Bool
  | config, value | template, value | output, value | operand, value => !value.isEmpty
  | format, value => (ContextFormat.ofName? value).isSome
  | _, _ => true

end Item

/-- The ways to write an option. -/
structure OptionName where
  /-- The letter after one dash. -/
  short : Option Char
  /-- The name after two dashes. -/
  long : String
  /-- What the option gives. -/
  item : Item

namespace OptionName

/-- That more is logged. -/
def verbose : OptionName := ⟨some 'v', "verbose", .verbose⟩

/-- The path of the configuration. -/
def config : OptionName := ⟨some 'c', "config", .config⟩

/-- That what is logged has no colours. -/
def noColor : OptionName := ⟨none, "no-color", .noColor⟩

/-- The wish for help. -/
def help : OptionName := ⟨some 'h', "help", .help⟩

/-- A variable. -/
def entry : OptionName := ⟨some 'V', "var", .entry⟩

/-- The key of the body. -/
def bodyKey : OptionName := ⟨none, "body-key", .bodyKey⟩

/-- The options before a command. -/
def leading : List OptionName :=
  [verbose, config, noColor, help, ⟨some 'V', "version", .version⟩]

/-- The options after a command, in the order in which help names them. Those of the command and those
that it shares with the others stand in turn. -/
def following : CommandName → List OptionName
  | .render =>
    [⟨some 't', "template", .template⟩, verbose, config, entry, noColor,
      ⟨some 'o', "output", .output⟩, bodyKey, help]
  | .check => [verbose, config, noColor, help]
  | .context =>
    [verbose, entry, config, ⟨none, "format", .format⟩, bodyKey, noColor, help]

end OptionName

/-! ### Words -/

/-- The kinds of words. -/
inductive WordKind where
  /-- The word that ends the options. -/
  | separator
  /-- An option with its name, and what follows two dashes. -/
  | long (text : List Char)
  /-- Options with their letters, and what follows one dash. -/
  | short (text : List Char)
  /-- A word without options. -/
  | plain

/-- The kind of a word. -/
def WordKind.of (word : String) : WordKind :=
  match word.toList with
  | ['-', '-'] => separator
  | '-' :: '-' :: text => long text
  | ['-'] => plain
  | '-' :: text => short text
  | _ => plain

/-- How far a part of a command line is read. -/
structure Scan where
  /-- The options that the part has. -/
  options : List OptionName
  /-- What is settled, in order; a flag has an empty value. -/
  settled : List (Item × String)
  /-- What is not settled yet, with its value if that is read. -/
  pending : Option (Item × Option String)

namespace Scan

/-- Nothing is read. -/
def start (options : List OptionName) : Scan := ⟨options, [], none⟩

/-- Whether an item is settled. -/
def has (s : Scan) (item : Item) : Bool :=
  s.settled.any fun entry => entry.1 = item

/-- The value of a settled item. -/
def value? (s : Scan) (item : Item) : Option String :=
  s.settled.lookup item

/-- All values of a settled item. -/
def values (s : Scan) (item : Item) : List String :=
  (s.settled.filter fun entry => entry.1 = item).map Prod.snd

/-- Whether the one path that a command has is read, settled or not. -/
def hasOperand (s : Scan) : Bool :=
  s.has .operand || s.pending.any fun entry => entry.1 = .operand

/-- Settle what is pending. -/
def settle (s : Scan) : Except ArgumentsError Scan :=
  match s.pending with
  | none => .ok s
  | some (_, none) => .error .invalidValue
  | some (item, some value) =>
    if !item.repeats && s.has item then .error .repeated
    else if !item.admits value then .error .invalidValue
    else .ok { s with settled := s.settled ++ [(item, value)], pending := none }

/-- Settle what is pending and make an item pending, with its value if that is read. -/
def await (s : Scan) (item : Item) (value : Option String) : Except ArgumentsError Scan := do
  return { ← s.settle with pending := some (item, value) }

/-- Read an item with its value, or a flag. Both are settled at once. -/
def give (s : Scan) (item : Item) (value : String) : Except ArgumentsError Scan := do
  (← s.await item (some value)).settle

/-- Read a flag. A wish ends the reading. -/
def flag (s : Scan) (item : Item) : Except ArgumentsError Scan :=
  match item with
  | .help => s.settle.bind fun _ => .error .help
  | .version => s.settle.bind fun _ => .error .version
  | _ => s.give item ""

/-- Read options with their letters. The first that comes with a value takes the rest of the word. -/
def short (s : Scan) : List Char → Except ArgumentsError Scan
  | [] => .ok s
  | letter :: rest =>
    match s.options.find? fun o => o.short = some letter with
    | none => .error .unknownArgument
    | some o =>
      if o.item.hasValue then
        match rest with
        | [] => s.await o.item none
        | '=' :: value => s.give o.item (String.ofList value)
        | value => s.give o.item (String.ofList value)
      else (s.flag o.item).bind fun s => s.short rest

/-- Read an option with its name. -/
def long (s : Scan) (text : List Char) : Except ArgumentsError Scan :=
  let name := String.ofList (text.takeWhile (· != '='))
  match s.options.find? fun o => o.long = name with
  | none => .error .unknownArgument
  | some o =>
    match text.dropWhile (· != '='), o.item.hasValue with
    | [], true => s.await o.item none
    | [], false => s.flag o.item
    | _ :: value, true => s.give o.item (String.ofList value)
    | _ :: _, false => .error .unexpectedValue

/-- Read the path that a command is about. -/
def operand (s : Scan) (word : String) : Except ArgumentsError Scan :=
  if s.hasOperand then .error .unknownArgument else s.await .operand (some word)

/-- Read a command's own words and settle all; after `--` every word is a path. -/
def words (s : Scan) : (ended : Bool) → List String → Except ArgumentsError Scan
  | _, [] => s.settle
  | true, word :: rest => (s.operand word).bind fun s => s.words true rest
  | false, word :: rest =>
    match WordKind.of word with
    | .separator => s.words true rest
    | .long text => (s.long text).bind fun s => s.words false rest
    | .short text => (s.short text).bind fun s => s.words false rest
    | .plain =>
      match s.pending with
      | some (item, none) => words { s with pending := some (item, some word) } false rest
      | _ => (s.operand word).bind fun s => s.words false rest

end Scan

/-! ### Commands -/

/-- The command that settled words make. -/
def CommandName.command (name : CommandName) (s : Scan) : Except ArgumentsError Command :=
  match s.value? .operand with
  | none => .error .missingOperand
  | some operand =>
    match name with
    | render => .ok (.render operand (s.value? .template) (s.values .entry) (s.value? .output)
        (s.value? .bodyKey))
    | check => .ok (.check operand)
    | context => .ok (.context operand (s.values .entry)
        (((s.value? .format).bind ContextFormat.ofName?).getD .json) (s.value? .bodyKey))

/-- What words about a topic give, with the topic if they are refused. -/
def Topic.reading {α : Type} (topic : Topic) (result : Except ArgumentsError α) :
    Except Refusal α :=
  result.mapError fun cause => ⟨cause, topic⟩

namespace Arguments

/-- What comes of the words after the one that asks for help: at most one, which names a command or is
that word again. -/
def helpOn : List String → Refusal
  | [] => ⟨.help, .program⟩
  | word :: rest =>
    match Topic.ofWord? word with
    | none => ⟨.unknownCommand, .program⟩
    | some topic => ⟨if rest.isEmpty then .help else .unknownCommand, topic⟩

/-- What comes of a command line that ends before a command. -/
def withoutCommand (s : Scan) : ArgumentsError :=
  match s.settle with
  | .error e => e
  | .ok s => if s.settled.isEmpty then .nothingGiven else .missingCommand

/-- What a command and its words say after what stands before it. A setting after the command wins
over the same setting before it. -/
def ofCommand (before : Scan) (name : CommandName) (words : List String) :
    Except Refusal Arguments := do
  let own ← Topic.reading (.command name)
    ((Scan.start (OptionName.following name)).words false words)
  let command ← Topic.reading (.command name) (name.command own)
  let before ← Topic.reading .program before.settle
  return {
    command := command
    verbose := own.has .verbose || before.has .verbose
    config := own.value? .config <|> before.value? .config
    noColor := own.has .noColor || before.has .noColor }

/-- What a command line says whose words are read up to some place before the command. -/
def ofScan (s : Scan) : List String → Except Refusal Arguments
  | [] => .error ⟨withoutCommand s, .program⟩
  | word :: rest =>
    match WordKind.of word with
    | .separator =>
      match rest with
      | [] => .error ⟨withoutCommand s, .program⟩
      | word :: _ =>
        .error ⟨if (Topic.ofWord? word).isSome then .unknownArgument else .unknownCommand, .program⟩
    | .long text => (Topic.reading .program (s.long text)).bind fun s => ofScan s rest
    | .short text => (Topic.reading .program (s.short text)).bind fun s => ofScan s rest
    | .plain =>
      match s.pending with
      | some (item, none) => ofScan { s with pending := some (item, some word) } rest
      | _ =>
        match Topic.ofWord? word with
        | some (.command name) => ofCommand s name rest
        | some .help => .error (helpOn rest)
        | _ => .error ⟨.unknownCommand, .program⟩

/-- What the words of a command line say, the name of the program left out. -/
def read (words : List String) : Except Refusal Arguments :=
  ofScan (Scan.start OptionName.leading) words

/-- The same, with nothing but the cause if there is no command to run. -/
def ofWords (words : List String) : Except ArgumentsError Arguments :=
  (read words).mapError Refusal.cause

end Arguments

end DocTemplate
