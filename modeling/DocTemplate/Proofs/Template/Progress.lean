import DocTemplate.Proofs.Template.Recognition

/-!
# Reading comes to an end

The reading of elements is a loop that goes on as long as an element is read. It is written with a
number of steps, and a source is given one step more than it has characters. This bound has no part
in what is read: every element that is read takes at least one character (`Parser.element_advances`),
so that the loop ends by itself before the steps run out, and any number of steps that is greater
than the length of the text gives the same reading (`Parser.elements_eq_of_lt`). With so many steps
the reading satisfies the equation of the loop without a bound (`Parser.elements_eq_loop`).

The reader of elements is also what the branches of a block are read by. There it starts behind the
opening tag, where less is left, so two readers that agree on all shorter texts
(`PartReader.AgreeBelow`) read the same blocks.
-/

namespace DocTemplate

namespace Text

theorem utf8Length_pos {text : List Char} (h : text ≠ []) : 0 < utf8Length text := by
  cases text with
  | nil => exact absurd rfl h
  | cons c text => exact Nat.lt_of_lt_of_le c.utf8Size_pos (Nat.le_add_right _ _)

end Text

theorem BlockKind.openTag_ne_nil (kind : BlockKind) (r : Reference) : kind.openTag r ≠ [] := by
  cases kind <;> exact List.cons_ne_nil _ _

namespace Cursor.Reads

variable {s t : Cursor} {text : List Char}

theorem pos_le (h : s.Reads text t) : s.pos ≤ t.pos := by
  rw [h.pos]
  exact Nat.le_add_right _ _

theorem length_le (h : s.Reads text t) : t.rest.length ≤ s.rest.length := by
  rw [h.rest, List.length_append]
  exact Nat.le_add_left _ _

theorem pos_lt (h : s.Reads text t) (hne : text ≠ []) : s.pos < t.pos := by
  rw [h.pos]
  exact Nat.lt_add_of_pos_right (Text.utf8Length_pos hne)

theorem length_lt (h : s.Reads text t) (hne : text ≠ []) : t.rest.length < s.rest.length := by
  rw [h.rest, List.length_append]
  exact Nat.lt_add_of_pos_left (List.length_pos_iff.mpr hne)

end Cursor.Reads

namespace Parser

variable {limit steps steps' bound : Nat} {inner inner' : PartReader} {kind : BlockKind}
  {s t : Cursor} {node : Node} {nodes : List Node}

/-! ### Every element takes text -/

/-- **An element that is read takes at least one character.** -/
theorem element_advances (hsound : inner.Sound limit)
    (h : element limit inner s = .ok (some node, t)) :
    s.pos < t.pos ∧ t.rest.length < s.rest.length := by
  obtain ⟨text, hst, hderives, -⟩ := element_sound hsound h
  exact ⟨hst.pos_lt hderives.ne_nil, hst.length_lt hderives.ne_nil⟩

/-! ### Readers of branches that agree on short texts -/

/-- Two readers of branches read the same if less is left than a bound. -/
def PartReader.AgreeBelow (bound : Nat) (inner inner' : PartReader) : Prop :=
  ∀ s : Cursor, s.rest.length < bound → inner s = inner' s

theorem parts_congr (hsound : inner.Sound limit) (hagree : PartReader.AgreeBelow bound inner inner')
    (hs : s.rest.length < bound) : parts inner kind s = parts inner' kind s := by
  rw [parts, parts, ← hagree s hs]
  cases hfirst : inner s with
  | error e => rfl
  | ok result =>
    obtain ⟨first, t⟩ := result
    obtain ⟨text, hst, -⟩ := hsound s first t hfirst
    rcases eat_outcome kind.middle t with ⟨u, hu, htu⟩ | ⟨u, hu, -⟩
    · have hlength : u.rest.length < bound :=
        Nat.lt_of_le_of_lt (hst.trans htu).length_le hs
      simp only [hu, hagree u hlength]
    · simp only [hu]

theorem contents_congr (hsound : inner.Sound limit)
    (hagree : PartReader.AgreeBelow bound inner inner') (hs : s.rest.length < bound) :
    contents inner kind s = contents inner' kind s := by
  have hlength : (eatTerminator s).2.rest.length < bound :=
    Nat.lt_of_le_of_lt (Text.length_splitTerminator_le s.rest) hs
  rw [contents, contents]
  rcases hterm : eatTerminator s with ⟨_ | ⟨c, cs⟩, t⟩
  all_goals
    rw [hterm] at hlength
    simp only [parts_congr hsound hagree hlength]

/-- A block is read in the same way if the readers agree on all shorter texts: its opening tag is not
empty. -/
theorem block_congr (hsound : inner.Sound limit)
    (hagree : PartReader.AgreeBelow s.rest.length inner inner') :
    block limit inner kind s = block limit inner' kind s := by
  rw [block, block]
  rcases openTag_outcome kind s with ⟨r, t, ht, hst, -⟩ | ⟨t, ht, -⟩
  · have hlength : t.rest.length < s.rest.length := hst.length_lt (kind.openTag_ne_nil r)
    have hcontents : contents inner kind { t with depth := t.depth + 1 } =
        contents inner' kind { t with depth := t.depth + 1 } :=
      contents_congr hsound hagree hlength
    simp only [ht, hcontents]
  · simp only [ht]

theorem element_congr (hsound : inner.Sound limit)
    (hagree : PartReader.AgreeBelow s.rest.length inner inner') :
    element limit inner s = element limit inner' s := by
  rw [element, element, ← block_congr hsound hagree]
  rcases hblock : block limit inner .conditional s with e | ⟨_ | node, t⟩
  · rfl
  · have hst : s.Reads [] t := block_sound hsound hblock
    rw [← hst.rest_of_nil] at hagree
    simp only [block_congr hsound hagree]
  · rfl

/-! ### The loop -/

/-- **The number of steps does not matter** if it is greater than the length of the text. -/
theorem elements_eq_of_lt (limit : Nat) (nodes : List Node) (hsteps : s.rest.length < steps)
    (hsteps' : s.rest.length < steps') :
    elements limit steps nodes s = elements limit steps' nodes s := by
  induction steps generalizing steps' nodes s with
  | zero => exact absurd hsteps (Nat.not_lt_zero _)
  | succ steps ih =>
    cases steps' with
    | zero => exact absurd hsteps' (Nat.not_lt_zero _)
    | succ steps' =>
      have hagree : PartReader.AgreeBelow s.rest.length (elements limit steps [])
          (elements limit steps' []) :=
        fun c hc => ih [] (by omega) (by omega)
      rw [elements, elements, element_congr (elements_sound limit steps) hagree]
      rcases helement : element limit (elements limit steps' []) s with e | ⟨_ | node, t⟩
      · rfl
      · rfl
      · have hlength := (element_advances (elements_sound limit steps') helement).2
        exact ih _ (by omega) (by omega)

/-- **The loop without a bound.** With more steps than characters, elements are read as long as there
are any, and the reading of each has as many steps again. -/
theorem elements_eq_loop (limit : Nat) (nodes : List Node) (hsteps : s.rest.length < steps) :
    elements limit steps nodes s =
      match element limit (elements limit steps []) s with
      | .error e => .error e
      | .ok (none, t) => .ok (nodes.reverse, t)
      | .ok (some node, t) => elements limit steps (Node.snoc nodes node) t :=
  elements_eq_of_lt limit nodes hsteps (Nat.lt_succ_of_lt hsteps)

end Parser

end DocTemplate
