import DocTemplate.Command.FileTree
import DocTemplate.Proofs.Except
import Mathlib.Data.String.Basic

/-!
# Writing to a file tree

A text is written at one place, which is not a directory (`exists_of_target`). The way to that place
leads through directories only, so it is the same way after the text is written (`follow_put`), and
what is read there then is the text (`read_write`).
-/

namespace DocTemplate.FileTree

variable {t t' : FileTree} {place file last : List String} {name path text : String} {node : FileNode}

/-- A name is entered from a directory. -/
theorem node?_of_enter (h : t.enter place name = .ok last) : t.node? place = some .directory := by
  rw [enter] at h
  split at h
  next hnode => exact hnode
  next => cases h

/-- What is at another place than a directory has no part in entering it. -/
theorem enter_put (hfile : file ≠ []) (hnode : t.node? file ≠ some .directory)
    (h : t.enter place name = .ok last) : (t.put file node).enter place name = .ok last := by
  -- the directory that is entered is another place
  have hplace := node?_of_enter h
  have hne : place ≠ file := by
    rintro rfl
    exact hnode hplace
  rw [enter, hplace] at h
  rw [enter, node?_put t hfile, if_neg hne, hplace]
  exact h

theorem follow_append (t : FileTree) (place first rest : List String) :
    t.follow place (first ++ rest) = (t.follow place first).bind fun next => t.follow next rest := by
  induction first generalizing place with
  | nil => rfl
  | cons name first ih =>
    rw [List.cons_append, follow, follow]
    cases t.enter place name with
    | error e => rfl
    | ok next =>
      simp only [bind, Except.bind]
      split
      · exact ih next
      · rfl

/-- **A way stays the same** if something is put where no directory is. -/
theorem follow_put (hfile : file ≠ []) (hnode : t.node? file ≠ some .directory) {names : List String}
    (h : t.follow place names = .ok last) : (t.put file node).follow place names = .ok last := by
  induction names generalizing place with
  | nil => exact h
  | cons name names ih =>
    rw [follow] at h ⊢
    cases henter : t.enter place name with
    | error e => rw [henter] at h; cases h
    | ok next =>
      rw [henter] at h
      rw [enter_put hfile hnode henter]
      simp only [bind, Except.bind] at h ⊢
      split at h
      next hnext =>
        have hnext' : ((t.put file node).node? next).isSome := by
          rw [node?_put t hfile]
          split
          · rfl
          · exact hnext
        rw [if_pos hnext']
        exact ih h
      next => cases h

/-! ### Writing -/

/-- **The place of a file to write** is under the last name of the path, and is no directory. -/
theorem exists_of_target (h : t.target path = .ok place) :
    ∃ start directory name, t.origin path = .ok start ∧
      namesOf path = (namesOf path).dropLast ++ [name] ∧
      t.follow start (namesOf path).dropLast = .ok directory ∧ t.enter directory name = .ok place ∧
      place = directory ++ [name] ∧ endsInSlash path = false ∧ t.node? place ≠ some .directory := by
  rw [target] at h
  obtain ⟨start, hstart, h⟩ := exists_of_bind_eq_ok h
  obtain ⟨directory, hfollow, h⟩ := exists_of_bind_eq_ok h
  split at h
  next => cases h
  next name hname =>
    obtain ⟨next, henter, h⟩ := exists_of_bind_eq_ok h
    by_cases hlast : name = "." ∨ name = ".." ∨ endsInSlash path = true
    · rw [if_pos hlast] at h
      cases h
    · rw [if_neg hlast] at h
      obtain ⟨hdot, hdots, hslash⟩ := not_or.mp hlast |>.imp_right not_or.mp
      have hnext : next = directory ++ [name] := by
        rw [enter, node?_of_enter henter] at henter
        simp only [if_neg hdot, if_neg hdots] at henter
        split at henter
        next => cases henter
        next => exact (Except.ok.inj henter).symm
      have hplace : t.node? next ≠ some .directory ∧ next = place := by
        simp only at h
        split at h
        next => cases h
        next hnode => exact ⟨hnode, Except.ok.inj h⟩
      obtain ⟨hnode, rfl⟩ := hplace
      exact ⟨start, directory, name, hstart, (List.dropLast_append_getLast? name hname).symm, hfollow,
        henter, hnext, Bool.eq_false_iff.mpr hslash, hnode⟩

theorem ne_nil_of_target (h : t.target path = .ok place) : place ≠ [] := by
  obtain ⟨-, directory, name, -, -, -, -, rfl, -, -⟩ := exists_of_target h
  exact List.append_ne_nil_of_right_ne_nil directory (List.cons_ne_nil name [])

theorem write_eq_ok_iff :
    t.write path text = .ok t' ↔
      ∃ place, t.target path = .ok place ∧ t' = t.put place (.file text.toUTF8) := by
  rw [write]
  cases t.target path <;> simp [bind, Except.bind, pure, Except.pure, eq_comm]

/-- **What is written at a path is read there.** -/
theorem read_write (h : t.write path text = .ok t') : t'.read path = .ok text := by
  obtain ⟨place, htarget, rfl⟩ := write_eq_ok_iff.mp h
  have hplace := ne_nil_of_target htarget
  obtain ⟨start, directory, name, hstart, hnames, hfollow, henter, -, hslash, hnode⟩ :=
    exists_of_target htarget
  have hwritten : (t.put place (.file text.toUTF8)).node? place = some (.file text.toUTF8) := by
    rw [node?_put t hplace, if_pos rfl]
  -- the way to the directory is as before, and the last step on it leads to the file
  have hway : (t.put place (.file text.toUTF8)).follow start (namesOf path) = .ok place := by
    rw [hnames, follow_append, follow_put hplace hnode hfollow]
    simp only [Except.bind, follow, enter_put hplace hnode henter, bind, hwritten]
    rfl
  have hfind : (t.put place (.file text.toUTF8)).find path = .ok (.file text.toUTF8) := by
    have horigin : (t.put place (.file text.toUTF8)).origin path = .ok start := hstart
    rw [find, horigin]
    simp only [bind, Except.bind, hway, hwritten, hslash]
    rfl
  have htext : String.fromUTF8? text.toUTF8 = some text := dif_pos text.isValidUTF8
  rw [read, hfind]
  simp only [bind, Except.bind, htext]
  rfl

/-- The second tree is the first one with a text in the file at a path. -/
structure Saved (t : FileTree) (path text : String) (t' : FileTree) : Prop where
  /-- The text is read at the path. -/
  read_eq : t'.read path = .ok text
  /-- One place has the bytes of the text, and the others have what they had. -/
  node?_eq : ∃ place, t.target path = .ok place ∧ t'.node? place = some (.file text.toUTF8) ∧
    ∀ other, other ≠ place → t'.node? other = t.node? other
  /-- Relative paths begin where they did. -/
  current_eq : t'.current = t.current

/-- **A writing changes what is at one place**, and the path leads there. -/
theorem saved_of_write (h : t.write path text = .ok t') : t.Saved path text t' := by
  obtain ⟨place, htarget, rfl⟩ := write_eq_ok_iff.mp h
  have hplace := ne_nil_of_target htarget
  refine ⟨read_write h, ⟨place, htarget, ?_, fun other hother => ?_⟩, rfl⟩
  · rw [node?_put t hplace, if_pos rfl]
  · rw [node?_put t hplace, if_neg hother]

end DocTemplate.FileTree
