import DocTemplate.Command.Run

/-!
# The program

The commands on a machine: its files, its output and the environment it gives to a process.
-/

namespace DocTemplate.Machine

/-- The cause for which a machine does not read or write a file. -/
def fileError : IO.Error → FileError
  | .noFileOrDirectory _ 20 _ => .notDirectory
  | .noFileOrDirectory .. => .notFound
  | .inappropriateType _ 21 _ => .isDirectory
  | .inappropriateType .. => .notDirectory
  | .invalidArgument _ 36 _ => .nameTooLong
  | error => .other (toString error)

/-- The text of the file at a path. -/
def read (path : String) : IO (Except FileError String) := do
  try
    match String.fromUTF8? (← IO.FS.readBinFile path) with
    | some text => return .ok text
    | none => return .error .notText
  catch error => return .error (fileError error)

/-- Make a text the contents of the file at a path. -/
def write (path text : String) : IO (Except FileError Unit) := do
  try
    IO.FS.writeBinFile path text.toUTF8
    return .ok ()
  catch error => return .error (fileError error)

/-- Whether something is at a path. -/
def present (path : String) : IO Bool := do
  try
    let _ ← IO.FS.Handle.mk path .read
    return true
  catch _ => return false

/-- Add a text to the output. -/
def print (text : String) : IO Unit := do
  let stdout ← IO.getStdout
  stdout.putStr text
  stdout.flush

/-- The machine as a host. -/
def host : Host IO := ⟨present, read, write, print⟩

/-- The variables of the environment that a run looks at. -/
def environmentNames : List String :=
  ["HOME", "QUILL_TEMPLATE", "QUILL_BODY_KEY", "QUILL_MAX_NESTING", "QUILL_LOG_LEVEL",
    "QUILL_LOG_FORMAT"]

/-- The number of the user in the status of a process. -/
def userOf (status : String) : Option String :=
  (status.splitOn "\n").findSome? fun line =>
    match line.splitOn "\t" with
    | "Uid:" :: user :: _ => some user
    | _ => none

/-- The home directory that a list of users has for a number. -/
def homeOf (users user : String) : Option String :=
  (users.splitOn "\n").findSome? fun line =>
    match line.splitOn ":" with
    | [_, _, number, _, _, home, _] => if number = user then some home else none
    | _ => none

/-- The home directory that the machine's list of users has for the user. -/
def account : IO (Option String) := do
  match ← read "/proc/self/status", ← read "/etc/passwd" with
  | .ok status, .ok users => return (userOf status).bind (homeOf users)
  | _, _ => return none

/-- The environment of the machine. -/
def environment : IO Environment := do
  let entries ← environmentNames.mapM fun name => return (name, ← IO.getEnv name)
  return ⟨fun name => (entries.lookup name).join, ← account⟩

end DocTemplate.Machine

open DocTemplate in
/-- Run the program on the words of the command line. -/
def main (words : List String) : IO UInt32 := do
  let ending ← runWords Machine.host (← Machine.environment) words
  let stderr ← IO.getStderr
  match ending with
  | .done => pure ()
  | .failed error => stderr.putStrLn ("Error: " ++ error.message)
  | .refused refusal => stderr.putStr refusal.notice
  return ending.exitCode.toUInt32
