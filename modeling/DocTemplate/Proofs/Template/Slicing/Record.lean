import DocTemplate.Proofs.Template.Progress
import DocTemplate.Proofs.Template.Slicing

/-!
# Records of readings by offsets

What a reading by offsets writes down is as it should be (`Slicing.History.IsSound`) if three things
hold. The offsets of every state are boundaries of the source. The mark of the furthest place at which
something was missing never goes back. And what was tried has returned as the reader of the same name
does at a cursor that stands in the source (`Cursor.IsIn`), so that whatever is true of the readers of
cursors is true of the record.

This is true of them: from where a reader is tried to where it returns a text is read, and none if it
returns nothing (`Attempt.exists_reads`). So a reader that returns nothing leaves only a mark, and no
reader leaves a block open (`Attempt.keeps`).

A record grows by a state or by a return at a time, and one lemma for each says when it stays sound
(`Slicing.History.IsSound.move`, `Slicing.History.IsSound.note`).
-/

namespace DocTemplate

open Text (utf8Length slice? IsBoundary)

/-! ### Where a cursor stands -/

namespace Cursor

/-- The state of a reading by offsets where a cursor stands. -/
def offsets (s : Cursor) : Offsets :=
  ⟨s.pos, s.furthest, s.depth⟩

/-- A cursor stands in a source: what is left to be read is what the source has behind its place, and
its mark is at a boundary. -/
structure IsIn (source : String) (s : Cursor) : Prop where
  rest : ∃ before, source.toList = before ++ s.rest ∧ s.pos = utf8Length before
  furthest : IsBoundary source s.furthest

namespace IsIn

variable {source : String} {s t : Cursor} {text : List Char}

theorem start (source : String) : (Cursor.start source.toList).IsIn source where
  rest := ⟨[], rfl, rfl⟩
  furthest := Text.isBoundary_zero source

theorem pos (h : s.IsIn source) : IsBoundary source s.pos := by
  obtain ⟨before, hsource, hpos⟩ := h.rest
  exact Text.isBoundary_iff.mpr ⟨before, s.rest, hsource, hpos⟩

/-- The place of a cursor is before the end of the source as long as something is left. -/
theorem pos_lt_iff (h : s.IsIn source) : s.pos < source.utf8ByteSize ↔ s.rest ≠ [] := by
  obtain ⟨before, hsource, hpos⟩ := h.rest
  rw [Text.utf8ByteSize_eq, hsource, Text.utf8Length_append, hpos, Nat.lt_add_right_iff_pos]
  refine ⟨?_, Text.utf8Length_pos⟩
  rintro hlt hnil
  rw [hnil, Text.utf8Length_nil] at hlt
  exact Nat.lt_irrefl 0 hlt

/-- **The slice from the place of a cursor on is the text that is left.** -/
theorem slice?_pos (h : s.IsIn source) :
    slice? source s.pos source.utf8ByteSize = some (String.ofList s.rest) := by
  obtain ⟨before, hsource, hpos⟩ := h.rest
  rw [hpos]
  exact Text.slice?_utf8ByteSize hsource

/-- And between two places stands what was read. -/
theorem slice?_of_reads (h : s.IsIn source) (hst : s.Reads text t) :
    slice? source s.pos t.pos = some (String.ofList text) := by
  obtain ⟨before, hsource, hpos⟩ := h.rest
  rw [hst.pos, hpos, ← Text.utf8Length_append]
  exact Text.slice?_append (by rw [hsource, hst.rest, List.append_assoc])

theorem of_reads (h : s.IsIn source) (hst : s.Reads text t) (hmark : IsBoundary source t.furthest) :
    t.IsIn source where
  rest := by
    obtain ⟨before, hsource, hpos⟩ := h.rest
    refine ⟨before ++ text, ?_, ?_⟩
    · rw [hsource, hst.rest, List.append_assoc]
    · rw [hst.pos, hpos, Text.utf8Length_append]
  furthest := hmark

theorem miss (h : s.IsIn source) : s.miss.IsIn source := by
  refine h.of_reads (.miss s) ?_
  rcases Nat.le_total s.furthest s.pos with hle | hle
  · rw [Cursor.miss, Nat.max_eq_right hle]
    exact h.pos
  · rw [Cursor.miss, Nat.max_eq_left hle]
    exact h.furthest

theorem rewind (h : s.IsIn source) (ht : t.IsIn source) : (t.rewind s).IsIn source :=
  ⟨h.rest, ht.furthest⟩

theorem count (h : s.IsIn source) (depth : Nat) : IsIn source { s with depth := depth } :=
  ⟨h.rest, h.furthest⟩

end IsIn

end Cursor

/-! ### What is tried -/

namespace Attempt

/-- What trying a reader at a cursor comes to: whether something is read, and where the cursor is
then. The branches of a block are read in so many steps. -/
def result (limit steps : Nat) : Attempt → Cursor → Except TooDeep (Bool × Cursor)
  | name, s => .ok ((Parser.name s).map Option.isSome id)
  | reference, s => .ok ((Parser.reference s).map Option.isSome id)
  | literalRun, s => .ok ((Parser.literalRun s).map Option.isSome id)
  | interpolation, s => .ok ((Parser.interpolation s).map Option.isSome id)
  | openTag kind, s => .ok ((Parser.openTag kind s).map Option.isSome id)
  | block kind, s =>
    (Parser.block limit (Parser.elements limit steps []) kind s).map (Prod.map Option.isSome id)

variable {limit steps : Nat} {attempt : Attempt} {s t : Cursor} {found : Bool}

/-- A reader of which the outcomes are known reads a text, and none if it returns nothing. -/
theorem exists_reads_of_outcome {α : Type} {read : Option α × Cursor} {text : α → List Char}
    {P : α → Cursor → Prop} {Q : Cursor → Prop}
    (houtcome : (∃ a u, read = (some a, u) ∧ s.Reads (text a) u ∧ P a u) ∨
      ∃ u, read = (none, u) ∧ s.Reads [] u ∧ Q u)
    (h : (.ok (read.map Option.isSome id) : Except TooDeep (Bool × Cursor)) = .ok (found, t)) :
    ∃ text, s.Reads text t ∧ (found = false → text = []) := by
  rcases houtcome with ⟨a, u, rfl, hsu, -⟩ | ⟨u, rfl, hsu, -⟩
  all_goals
    cases h
    exact ⟨_, hsu, by simp⟩

/-- **From where a reader is tried to where it returns a text is read**, and none if it returns
nothing. -/
theorem exists_reads (h : attempt.result limit steps s = .ok (found, t)) :
    ∃ text, s.Reads text t ∧ (found = false → text = []) := by
  cases attempt with
  | name => exact exists_reads_of_outcome (Parser.name_outcome s) h
  | reference => exact exists_reads_of_outcome (Parser.reference_outcome s) h
  | literalRun =>
    rw [result] at h
    rcases Parser.literalRun_outcome s with ⟨run, u, hu, hsu, -⟩ | ⟨hs, -⟩
    · rw [hu] at h
      cases h
      exact ⟨run, hsu, by simp⟩
    · rw [hs] at h
      cases h
      exact ⟨[], .refl s, fun _ => rfl⟩
  | interpolation => exact exists_reads_of_outcome (Parser.interpolation_outcome s) h
  | openTag kind => exact exists_reads_of_outcome (Parser.openTag_outcome kind s) h
  | block kind =>
    rw [result] at h
    rcases hblock : Parser.block limit (Parser.elements limit steps []) kind s with
      e | ⟨_ | node, u⟩
    all_goals
      rw [hblock] at h
      cases h
    · exact ⟨[], Parser.block_sound (Parser.elements_sound limit steps) hblock, fun _ => rfl⟩
    · obtain ⟨text, hsu, -⟩ := Parser.block_sound (Parser.elements_sound limit steps) hblock
      exact ⟨text, hsu, by simp⟩

/-- **A reader that returns nothing leaves only a mark**, and no reader leaves a block open. -/
theorem keeps (h : attempt.result limit steps s = .ok (found, t)) :
    t.depth = s.depth ∧ (found = false → t = { s with furthest := t.furthest }) := by
  obtain ⟨text, hst, hnil⟩ := exists_reads h
  refine ⟨hst.depth, fun hfound => ?_⟩
  obtain rfl := hnil hfound
  have hrest : t.rest = s.rest := hst.rest_of_nil
  have hpos : t.pos = s.pos := hst.pos
  rw [← hrest, ← hpos, ← hst.depth]

end Attempt

/-! ### Sound records -/

namespace Slicing

/-- What is written down of a reading of a source is as it should be: the offsets of a state are
boundaries, and what was tried has returned as the reader does at a cursor in the source. -/
def Event.IsSound (source : String) (limit : Nat) : Event → Prop
  | .reached state => IsBoundary source state.pos ∧ IsBoundary source state.furthest
  | .returned attempt found entry exit =>
    ∃ steps s t, s.IsIn source ∧ attempt.result limit steps s = .ok (found, t) ∧
      entry = s.offsets ∧ exit = t.offsets

/-- The states of a record, in order. -/
def visited (events : List Event) : List Offsets :=
  events.filterMap fun
    | .reached state => some state
    | .returned .. => none

theorem mem_visited {events : List Event} {state : Offsets} :
    state ∈ visited events ↔ .reached state ∈ events := by
  rw [visited, List.mem_filterMap]
  constructor
  · rintro ⟨_ | _, hmem, heq⟩
    · cases heq
      exact hmem
    · cases heq
  · intro hmem
    exact ⟨_, hmem, rfl⟩

theorem visited_append (events others : List Event) :
    visited (events ++ others) = visited events ++ visited others :=
  List.filterMap_append

/-- A record of a reading is as it should be, and its mark has never gone back. -/
structure History.IsSound (source : String) (limit : Nat) (h : History) : Prop where
  events : ∀ e ∈ h.events, e.IsSound source limit
  increasing : (visited h.events).Pairwise fun a b => a.furthest ≤ b.furthest
  le_now : ∀ state ∈ visited h.events, state.furthest ≤ h.now.furthest

namespace History.IsSound

variable {source : String} {limit steps : Nat} {h : History}

theorem start (source : String) (limit : Nat) : History.start.IsSound source limit where
  events := by
    have hzero := Text.isBoundary_zero source
    simpa [History.start, Event.IsSound] using hzero
  increasing := List.pairwise_singleton _ _
  le_now := by simp [History.start, visited]

/-- A state whose offsets are boundaries may be reached, unless its mark goes back. -/
theorem move (hsound : h.IsSound source limit) {change : Offsets → Offsets}
    (hpos : IsBoundary source (change h.now).pos)
    (hfurthest : IsBoundary source (change h.now).furthest)
    (hle : h.now.furthest ≤ (change h.now).furthest) : (h.move change).IsSound source limit where
  events e he := by
    rcases List.mem_append.mp he with he | he
    · exact hsound.events e he
    · obtain rfl := List.mem_singleton.mp he
      exact ⟨hpos, hfurthest⟩
  increasing := by
    rw [History.move, visited_append]
    refine List.pairwise_append.mpr ⟨hsound.increasing, List.pairwise_singleton _ _, ?_⟩
    intro a ha b hb
    obtain rfl := List.mem_singleton.mp hb
    exact Nat.le_trans (hsound.le_now a ha) hle
  le_now a ha := by
    rw [History.move, visited_append] at ha
    rcases List.mem_append.mp ha with ha | ha
    · exact Nat.le_trans (hsound.le_now a ha) hle
    · obtain rfl := List.mem_singleton.mp ha
      exact Nat.le_refl _

/-- What was tried may be written down if it has returned as the reader does. -/
theorem note (hsound : h.IsSound source limit) {attempt : Attempt} {found : Bool} {s t : Cursor}
    (hs : s.IsIn source) (hresult : attempt.result limit steps s = .ok (found, t))
    (hnow : h.now = t.offsets) : (h.note attempt found s.offsets).IsSound source limit where
  events e he := by
    rcases List.mem_append.mp he with he | he
    · exact hsound.events e he
    · obtain rfl := List.mem_singleton.mp he
      exact ⟨steps, s, t, hs, hresult, rfl, hnow⟩
  increasing := by
    rw [History.note, visited_append]
    simpa [visited] using hsound.increasing
  le_now a ha := by
    rw [History.note, visited_append] at ha
    exact hsound.le_now a (by simpa [visited] using ha)

end History.IsSound

end Slicing

end DocTemplate
