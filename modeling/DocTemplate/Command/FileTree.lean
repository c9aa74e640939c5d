import DocTemplate.Command.Host

/-!
# File trees

A file tree says what is at each place, a place being the list of names that leads there from the
root. A path is followed name by name from the root or from the current directory. Reading leaves the
tree as it is, and writing changes what is at one place (`node?_put`).

A world is a file tree together with what has been printed. As the state of a monad it is a host, on
which the commands run as on a machine.
-/

namespace DocTemplate

/-- What can be at a place. -/
inductive FileNode where
  /-- A directory. -/
  | directory
  /-- A file with its contents. -/
  | file (contents : ByteArray)

/-- A tree of files. -/
structure FileTree where
  /-- The places below the root at which something is, the latest first. -/
  nodes : List (List String × FileNode)
  /-- The place at which relative paths begin. -/
  current : List String

namespace FileTree

/-- What is at a place. The root is always there. -/
def node? (t : FileTree) (place : List String) : Option FileNode :=
  if place = [] then some .directory else t.nodes.lookup place

/-- The tree with a node at a place. -/
def put (t : FileTree) (place : List String) (node : FileNode) : FileTree :=
  { t with nodes := (place, node) :: t.nodes.filter fun entry => entry.1 ≠ place }

theorem lookup_filter_ne {place other : List String} (h : other ≠ place)
    (nodes : List (List String × FileNode)) :
    (nodes.filter fun entry => entry.1 ≠ place).lookup other = nodes.lookup other := by
  induction nodes with
  | nil => rfl
  | cons entry rest ih =>
    obtain ⟨p, node⟩ := entry
    by_cases hp : p = place
    · subst hp
      rw [List.filter_cons_of_neg (by simp), ih, List.lookup_cons, beq_false_of_ne h]
    · rw [List.filter_cons_of_pos (by simpa using hp), List.lookup_cons, List.lookup_cons, ih]

/-- What is put at a place is there, and what is at any other place stays. -/
theorem node?_put (t : FileTree) {place : List String} (h : place ≠ []) (node : FileNode)
    (other : List String) :
    (t.put place node).node? other = if other = place then some node else t.node? other := by
  by_cases ho : other = place
  · subst ho
    rw [node?, if_neg h, if_pos rfl, put, List.lookup_cons, beq_self_eq_true]
  · rw [if_neg ho, node?, node?, put, List.lookup_cons, beq_false_of_ne ho]
    exact congrArg (fun x => if other = [] then some .directory else x)
      (lookup_filter_ne ho t.nodes)

/-- The tree with directories along names that follow a place; what is there already stays. -/
def putDirectories (t : FileTree) (place : List String) : List String → FileTree
  | [] => t
  | name :: rest =>
    let next := place ++ [name]
    putDirectories (if (t.node? next).isSome then t else t.put next .directory) next rest

/-- The tree with a file at a place and directories on the way to it. -/
def putFile (t : FileTree) (place : List String) (contents : ByteArray) : FileTree :=
  (t.putDirectories [] place.dropLast).put place (.file contents)

/-- The tree that has its current directory and nothing else. -/
def empty (current : List String) : FileTree :=
  putDirectories ⟨[], current⟩ [] current

/-- The contents of the files, with the names that lead to them. -/
def files (t : FileTree) : List (List String × ByteArray) :=
  t.nodes.filterMap fun (place, node) =>
    match node with
    | .directory => none
    | .file contents => some (place, contents)

/-! ### Paths -/

/-- The number of bytes that a name may have. -/
def maxName : Nat := 255

/-- The number of bytes that a path may have. -/
def maxPath : Nat := 4095

/-- The names in a path, empty ones left out. -/
def namesOf (path : String) : List String :=
  ((path.toList.splitOn '/').filter (· ≠ [])).map String.ofList

/-- Whether a path ends with a slash, so that it must lead to a directory. -/
def endsInSlash (path : String) : Bool :=
  path.toList.getLast? = some '/'

/-- The place at which a path begins, if the path is one. -/
def origin (t : FileTree) (path : String) : Except FileError (List String) :=
  match path.toList with
  | [] => .error .notFound
  | first :: rest =>
    if '\x00' ∈ first :: rest then .error .badName
    else if maxPath < path.utf8ByteSize then .error .nameTooLong
    else .ok (if first = '/' then [] else t.current)

/-- The place of a name in a directory, whether or not something is there. -/
def enter (t : FileTree) (place : List String) (name : String) : Except FileError (List String) :=
  match t.node? place with
  | some .directory =>
    if name = "." then .ok place
    else if name = ".." then .ok place.dropLast
    else if maxName < name.utf8ByteSize then .error .nameTooLong
    else .ok (place ++ [name])
  | _ => .error .notDirectory

/-- The place to which names lead, at which something is. -/
def follow (t : FileTree) (place : List String) : List String → Except FileError (List String)
  | [] => .ok place
  | name :: rest => do
    let next ← t.enter place name
    if (t.node? next).isSome then t.follow next rest else .error .notFound

/-- What is at a path. -/
def find (t : FileTree) (path : String) : Except FileError FileNode := do
  let place ← t.follow (← t.origin path) (namesOf path)
  match t.node? place with
  | none => throw .notFound
  | some .directory => return .directory
  | some (.file contents) =>
    if endsInSlash path then throw .notDirectory else return .file contents

/-! ### Reading and writing -/

/-- Whether something is at a path. -/
def present (t : FileTree) (path : String) : Bool :=
  (t.find path).isOk

/-- The text of the file at a path. -/
def read (t : FileTree) (path : String) : Except FileError String := do
  match ← t.find path with
  | .directory => throw .isDirectory
  | .file contents =>
    match String.fromUTF8? contents with
    | some text => return text
    | none => throw .notText

/-- The place at which writing to a path makes a file: its last name in the directory to which the
names before it lead. -/
def target (t : FileTree) (path : String) : Except FileError (List String) := do
  let start ← t.origin path
  let names := namesOf path
  let directory ← t.follow start names.dropLast
  match names.getLast? with
  | none => throw .isDirectory
  | some name =>
    let place ← t.enter directory name
    if name = "." ∨ name = ".." ∨ endsInSlash path then throw .isDirectory
    match t.node? place with
    | some .directory => throw .isDirectory
    | _ => return place

/-- The tree after a text is written to the file at a path. -/
def write (t : FileTree) (path text : String) : Except FileError FileTree := do
  return t.put (← t.target path) (.file text.toUTF8)

end FileTree

/-! ### Worlds -/

/-- A file tree and an output. -/
structure World where
  /-- The files. -/
  files : FileTree
  /-- What has been printed. -/
  output : String

/-- The world that is the state. -/
def World.host : Host (StateM World) where
  present path := return (← get).files.present path
  read path := return (← get).files.read path
  write path text := do
    match (← get).files.write path text with
    | .ok t =>
      modify fun s => { s with files := t }
      return .ok ()
    | .error e => return .error e
  print text := modify fun s => { s with output := s.output ++ text }

end DocTemplate
