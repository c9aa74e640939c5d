/-!
# What a program runs on

The commands reach the outside in four ways only: they ask whether something is at a path, read the
text of a file, write a text to a file, and print a text. A `Host` is a way to do so in a monad, so
that the commands can be run on a machine as well as on a world that is a value.
-/

namespace DocTemplate

/-- The causes for which a file is not read or written. -/
inductive FileError where
  /-- There is nothing at the path. -/
  | notFound
  /-- Something other than a directory stands in the middle of the path. -/
  | notDirectory
  /-- A directory is at the path. -/
  | isDirectory
  /-- The path or one of its names is too long. -/
  | nameTooLong
  /-- There is a character in the path that no path can have. -/
  | badName
  /-- The file is not a text in UTF-8. -/
  | notText
  /-- The cause that a machine names. -/
  | other (reason : String)
deriving DecidableEq

/-- The wording of a cause. -/
def FileError.message : FileError → String
  | notFound => "No such file or directory (os error 2)"
  | notDirectory => "Not a directory (os error 20)"
  | isDirectory => "Is a directory (os error 21)"
  | nameTooLong => "File name too long (os error 36)"
  | badName => "file name contained an unexpected NUL byte"
  | notText => "stream did not contain valid UTF-8"
  | other reason => reason

/-- A way to reach files and the output. -/
structure Host (m : Type → Type) where
  /-- Whether something is at a path. -/
  present : String → m Bool
  /-- The text of the file at a path. -/
  read : String → m (Except FileError String)
  /-- Make a text the contents of the file at a path, which need not be there. -/
  write : String → String → m (Except FileError Unit)
  /-- Add a text to the output. -/
  print : String → m Unit

end DocTemplate
