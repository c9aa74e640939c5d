import DocTemplate.Yaml.Lexeme

/-!
# Block scalars

A block scalar is a header and the lines after it that are indented far enough. A literal one keeps
its line breaks; in a folded one a single break between two lines that do not begin with a space
counts as a space. What becomes of the breaks at the end is said by the header.
-/

namespace DocTemplate.Yaml

/-- What becomes of the line breaks at the end of a block scalar. -/
inductive Chomping where
  /-- All are dropped. -/
  | strip
  /-- The first is kept. -/
  | clip
  /-- All are kept. -/
  | keep
deriving DecidableEq

/-- The header of a block scalar: what becomes of the breaks at its end, and by how much it is
indented if that is given. -/
structure BlockHeader where
  /-- What becomes of the breaks at the end. -/
  chomping : Chomping
  /-- The indentation relative to what contains the scalar. -/
  indentation : Option Nat

/-- The indicator of chomping that comes next. -/
def chomping? (cells : List Cell) : Option Chomping :=
  if nextChar cells = '+' then some .keep
  else if nextChar cells = '-' then some .strip
  else none

/-- Read an indicator of indentation, which may be missing but not zero. -/
def lexIndentation : Lexer (Option Nat) := fun cells =>
  let c := nextChar cells
  if c.isDigit then
    if c = '0' then none else some (some (c.toNat - '0'.toNat), cells.drop 1)
  else some (none, cells)

/-- Read the header of a block scalar with the rest of its line. -/
def lexBlockHeader : Lexer BlockHeader := fun cells => do
  match chomping? cells with
  | some chomping =>
    let (indentation, rest) ← lexIndentation (cells.drop 1)
    return (⟨chomping, indentation⟩, ← skipLineEnd? rest)
  | none =>
    let (indentation, rest) ← lexIndentation cells
    match indentation.bind fun _ => chomping? rest with
    | some chomping => return (⟨chomping, indentation⟩, ← skipLineEnd? (rest.drop 1))
    | none => return (⟨.clip, indentation⟩, ← skipLineEnd? rest)

/-- The breaks between two lines of a block scalar. -/
structure BreakRun where
  /-- The breaks, last first. -/
  breaks : List Char
  /-- The column of the lines. -/
  indent : Nat
  /-- The cells from the first character on that is neither a break nor indentation. -/
  rest : List Cell

/-- Read breaks and indentation. If the column of the lines is not known yet, which is written as
zero, it becomes that of the widest indentation found, but at least `least`. -/
def lexBreaks (least indent widest : Nat) (breaks : List Char) : List Cell → Option BreakRun
  | [] => some ⟨breaks, if indent = 0 then max (max widest least) 1 else indent, []⟩
  | cell :: rest =>
    let within := indent = 0 ∨ cell.column < indent
    if within ∧ cell.char = ' ' then lexBreaks least indent widest breaks rest
    else if within ∧ cell.char = '\t' then none
    else if isBreak cell.char then
      lexBreaks least indent (max widest cell.column) (cell.char :: breaks) rest
    else
      let widest := max widest cell.column
      some ⟨breaks, if indent = 0 then max (max widest least) 1 else indent, cell :: rest⟩

theorem length_rest_lexBreaks_le {least indent widest : Nat} {breaks : List Char}
    {cells : List Cell} {run : BreakRun}
    (h : lexBreaks least indent widest breaks cells = some run) :
    run.rest.length ≤ cells.length := by
  induction cells generalizing widest breaks with
  | nil =>
    simp only [lexBreaks, Option.some.injEq] at h
    subst h
    exact Nat.le_refl _
  | cons cell rest ih =>
    rw [lexBreaks] at h
    split at h
    · exact Nat.le_succ_of_le (ih h)
    · split at h
      · simp at h
      · split at h
        · exact Nat.le_succ_of_le (ih h)
        · simp only [Option.some.injEq] at h
          subst h
          exact Nat.le_refl _

/-- The lines of a block scalar read so far; texts are given last character first. -/
structure BlockText where
  /-- The text without the breaks at its end. -/
  text : List Char
  /-- The break that ends the last line. -/
  ending : List Char
  /-- The breaks after it. -/
  more : List Char
  /-- Whether the last line begins with a space. -/
  spaced : Bool

namespace BlockText

/-- Take in a line with the break that ends it and the breaks after that. -/
def addLine (b : BlockText) (folds : Bool) (line ending more : List Char) : BlockText :=
  let spaced := line.head?.any isSpace
  let joined :=
    if folds && b.ending == ['\n'] && !b.spaced && !spaced then
      if b.more.isEmpty then ' ' :: b.text else b.text
    else b.ending ++ b.text
  ⟨line.reverse ++ (b.more ++ joined), ending, more, spaced⟩

/-- The text with the breaks at its end treated as the header says. -/
def chomped (b : BlockText) (chomping : Chomping) : List Char :=
  match chomping with
  | .strip => b.text.reverse
  | .clip => (b.ending ++ b.text).reverse
  | .keep => (b.more ++ (b.ending ++ b.text)).reverse

end BlockText

/-- Read the lines of a block scalar that stand at a column. -/
def lexBlockLines (folds : Bool) (indent : Nat) (b : BlockText) (cells : List Cell) :
    Option (BlockText × List Cell) :=
  match cells with
  | [] => some (b, [])
  | cell :: rest =>
    if cell.column = indent ∧ cell.char ≠ endMark then
      let line := cell.char :: charsWhile (fun c => !endsLine c) rest
      let afterLine := skipWhile (fun c => !endsLine c) rest
      let ending := if isBreak (nextChar afterLine) then [nextChar afterLine] else []
      match _h : lexBreaks 0 indent 0 [] (afterLine.drop ending.length) with
      | none => none
      | some run =>
        lexBlockLines folds indent (b.addLine folds line ending run.breaks) run.rest
    else some (b, cell :: rest)
termination_by cells.length
decreasing_by
  have hrun := length_rest_lexBreaks_le _h
  have hskip : afterLine.length ≤ rest.length := (List.dropWhile_sublist _).length_le
  rw [List.length_drop] at hrun
  rw [List.length_cons]
  omega

/-- Read a block scalar after its indicator, in a collection that stands at column `parent`, or at
the outermost level if that is negative. -/
def lexBlock (folds : Bool) (parent : Int) : Lexer String := fun cells => do
  let (header, rest) ← lexBlockHeader cells
  let indent :=
    match header.indentation with
    | some n => parent.toNat + n
    | none => 0
  let run ← lexBreaks (parent + 1).toNat indent 0 [] rest
  let (b, rest) ← lexBlockLines folds run.indent ⟨[], [], run.breaks, false⟩ run.rest
  return (String.ofList (b.chomped header.chomping), rest)

end DocTemplate.Yaml
