import DocTemplate.Command.Arguments

/-!
# Help

Whoever asks for help is told about the program, about one of the commands, or about asking for help,
as the words say (`Topic.page`). A page says what its topic is for and how it is called, and has tables
of two columns: what can be written, and what it means. The second column begins behind the longest
entry of the first.
-/

namespace DocTemplate

/-! ### Pages -/

/-- What can be written, and what it means. -/
structure HelpEntry where
  /-- What can be written. -/
  form : String
  /-- What it means. -/
  about : String

/-- A text for whoever asks for help. -/
structure HelpPage where
  /-- What the topic is for. -/
  about : String
  /-- How it is called. -/
  usage : String
  /-- Tables with their titles. -/
  tables : List (String × List HelpEntry)

namespace HelpPage

/-- The length of the longest entry in the first column. -/
def width (entries : List HelpEntry) : Nat :=
  (entries.map fun e => e.form.length).max?.getD 0

/-- The first column of an entry. -/
def column (width : Nat) (e : HelpEntry) : String :=
  String.ofList (e.form.toList.rightpad width ' ')

/-- The lines of a table. -/
def lines (entries : List HelpEntry) : String :=
  String.join (entries.map fun e =>
    "  " ++ column (width entries) e ++ "  " ++ e.about ++ "\n")

/-- **The second column begins at one place** on all lines of a table. -/
theorem length_column {entries : List HelpEntry} {e : HelpEntry} (h : e ∈ entries) :
    (column (width entries) e).length = width entries := by
  have hle : e.form.length ≤ width entries :=
    List.le_max?_getD_of_mem (List.mem_map_of_mem h)
  rw [column, String.length_ofList, List.length_rightpad, String.length_toList,
    Nat.max_eq_left hle]

example : lines [⟨"render", "Render a document"⟩, ⟨"help", "Print help"⟩] =
    "  render  Render a document\n  help    Print help\n" := by decide +kernel

/-- How the topic is called, on a line. -/
def usageLine (p : HelpPage) : String :=
  "Usage: " ++ p.usage ++ "\n"

/-- The text of a page. -/
def print (p : HelpPage) : String :=
  p.about ++ "\n\n" ++ p.usageLine ++
    String.join (p.tables.map fun (title, entries) => "\n" ++ title ++ ":\n" ++ lines entries)

end HelpPage

/-! ### What can be written -/

namespace Item

/-- What stands in help for the value of an option. -/
def placeholder? : Item → Option String
  | config => some "CONFIG"
  | template => some "TEMPLATE"
  | entry => some "VARS"
  | output => some "OUTPUT"
  | bodyKey => some "BODY_KEY"
  | format => some "FORMAT"
  | help | version | verbose | noColor | operand => none

/-- What an option means. -/
def about : Item → String
  | help => "Print help"
  | version => "Print version"
  | verbose => "Enable verbose output"
  | noColor => "Disable colored output"
  | config => "Path to configuration file"
  | template => "Path to the template file"
  | entry => "Set or override a metadata field (key=value)"
  | output => "Output file (defaults to stdout)"
  | bodyKey => "Context key the document body is stored under"
  | format => "Output format [default: json] [possible values: json, yaml]"
  | operand => ""

/-- An item of an option has a placeholder exactly if it comes with a value. -/
theorem isSome_placeholder? {item : Item} (h : item ≠ operand) :
    item.placeholder?.isSome = item.hasValue := by
  cases item with
  | operand => exact absurd rfl h
  | _ => rfl

end Item

/-- The entry for an option. Names without a letter before them stand where those with one do. -/
def OptionName.helpEntry (o : OptionName) : HelpEntry where
  form :=
    (match o.short with
      | some letter => "-" ++ letter.toString ++ ", "
      | none => "    ") ++ "--" ++ o.long ++
    match o.item.placeholder? with
    | some placeholder => " <" ++ placeholder ++ ">"
    | none => ""
  about := o.item.about

namespace CommandName

/-- What a command does. -/
def about : CommandName → String
  | render => "Render a document through a template"
  | check => "Check a template for syntax errors without rendering"
  | context => "Print the context a document would be rendered with"

/-- The path that a command is about. -/
def operandEntry : CommandName → HelpEntry
  | check => ⟨"<TEMPLATE>", "Path to the template file"⟩
  | render | context => ⟨"<INPUT>", "Path to the source document"⟩

end CommandName

/-! ### Topics -/

namespace Topic

/-- What asking for help does. -/
def aboutHelp : String := "Print this message or the help of the given subcommand(s)"

/-- The page for a topic. -/
def page : Topic → HelpPage
  | program =>
    { about := "Convert documents with front matter through dollar-delimited templates"
      usage := "quill [OPTIONS] <COMMAND>"
      tables := [
        ("Commands", (CommandName.all.map fun name => ⟨name.word, name.about⟩) ++
          [⟨helpWord, aboutHelp⟩]),
        ("Options", OptionName.leading.map OptionName.helpEntry)] }
  | command name =>
    { about := name.about
      usage := "quill " ++ name.word ++ " [OPTIONS] " ++ name.operandEntry.form
      tables := [
        ("Arguments", [name.operandEntry]),
        ("Options", (OptionName.following name).map OptionName.helpEntry)] }
  | help =>
    { about := aboutHelp
      usage := "quill " ++ helpWord ++ " [COMMAND]..."
      tables := [("Arguments", [⟨"[COMMAND]...", "Print help for the subcommand(s)"⟩])] }

end Topic

/-! ### Answers -/

namespace Refusal

/-- What is told to whoever asks for the version. -/
def versionText : String := "quill 0.1.0\n"

/-- What is printed for a request: help about its topic, or the version. -/
def answer (r : Refusal) : String :=
  match r.cause with
  | .help => r.topic.page.print
  | .version => versionText
  | _ => ""

/-- What is told besides if nothing is asked for: help if there is not a word, or else how what the
words are about is called. -/
def notice (r : Refusal) : String :=
  match r.cause with
  | .help | .version => ""
  | .nothingGiven => r.topic.page.print
  | _ => r.topic.page.usageLine

/-- Only a request has an answer. -/
theorem answer_of_not_isRequest {r : Refusal} (h : r.isRequest = false) : r.answer = "" := by
  obtain ⟨cause, topic⟩ := r
  cases cause with
  | help | version => cases h
  | _ => rfl

end Refusal

end DocTemplate
