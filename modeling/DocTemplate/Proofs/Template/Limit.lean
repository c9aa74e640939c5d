import DocTemplate.Proofs.Template.Nesting
import DocTemplate.Proofs.Template.Printing

/-!
# The nesting limit

The limit is a filter on templates and nothing else (`Template.compile_limit_exact`). Under a limit
that is not reached a source compiles to what it compiles to under any greater limit, be it a
template or an error. Under a smaller limit a template is compiled if its blocks are nested at most
to that limit; otherwise the error names the line of the first block that is one too many.

The first part compares two readings step by step: what is read under a limit is read under a
greater one (`PartReader.Extends`), since the limit is looked at only to give up. The last part is
about places in the source, and the grammar tells them (`DocTemplate.Proofs.Template.Nesting`).
-/

namespace DocTemplate

open Grammar (Derives FirstBlockInside BlockBehind Inside)

namespace Parser

variable {limit limit' : Nat} {inner inner' : PartReader} {kind : BlockKind} {s : Cursor}

/-- A reader of branches returns what another one returns, if that does not give up. -/
def PartReader.Extends (inner' inner : PartReader) : Prop :=
  ∀ s result, inner s = .ok result → inner' s = .ok result

theorem parts_extends (hextends : inner'.Extends inner) {result : Option Parts × Cursor}
    (h : parts inner kind s = .ok result) : parts inner' kind s = .ok result := by
  rw [parts] at h ⊢
  split at h
  next => cases h
  next first t hfirst =>
    simp only [hextends s _ hfirst]
    split at h
    next u _ =>
      split at h
      next => cases h
      next second v hsecond =>
        simp only [hextends u _ hsecond]
        exact h
    next u _ => exact h

theorem contents_extends (hextends : inner'.Extends inner) {result : Option Parts × Cursor}
    (h : contents inner kind s = .ok result) : contents inner' kind s = .ok result := by
  rw [contents] at h ⊢
  split at h
  next t _ => exact parts_extends hextends h
  next terminator t _ _ =>
    split at h
    next => cases h
    next u hparts =>
      simp only [parts_extends hextends hparts]
      exact h
    next first second u hparts =>
      simp only [parts_extends hextends hparts]
      exact h

theorem block_extends (hle : limit ≤ limit') (hextends : inner'.Extends inner)
    {result : Option Node × Cursor} (h : block limit inner kind s = .ok result) :
    block limit' inner' kind s = .ok result := by
  rw [block] at h ⊢
  split at h
  next t _ => exact h
  next r t _ =>
    split at h
    next => cases h
    next hlimit =>
      -- the smaller limit admits this block, so the greater one does
      have hlimit' : ¬limit' ≤ t.depth := by omega
      simp only [if_neg hlimit']
      split at h
      next => cases h
      next first second u hcontents =>
        simp only [contents_extends hextends hcontents]
        exact h
      next u hcontents =>
        simp only [contents_extends hextends hcontents]
        exact h

theorem element_extends (hle : limit ≤ limit') (hextends : inner'.Extends inner)
    {result : Option Node × Cursor} (h : element limit inner s = .ok result) :
    element limit' inner' s = .ok result := by
  rw [element] at h ⊢
  split at h
  next => cases h
  next node t hblock =>
    simp only [block_extends hle hextends hblock]
    exact h
  next t hblock =>
    simp only [block_extends hle hextends hblock]
    split at h
    next => cases h
    next node u hblock' =>
      simp only [block_extends hle hextends hblock']
      exact h
    next u hblock' =>
      simp only [block_extends hle hextends hblock']
      exact h

/-- **What is read under a limit is read under a greater one.** -/
theorem elements_extends (hle : limit ≤ limit') (steps : Nat) (before : List Node) :
    PartReader.Extends (elements limit' steps before) (elements limit steps before) := by
  induction steps generalizing before with
  | zero => exact fun s result h => h
  | succ steps ih =>
    intro s result h
    rw [elements] at h ⊢
    split at h
    next => cases h
    next t helement =>
      simp only [element_extends hle (ih []) helement]
      exact h
    next node t helement =>
      simp only [element_extends hle (ih []) helement]
      exact ih _ t result h

end Parser

namespace Template

variable {source : String} {limit limit' : Nat} {t : Template}

/-- A result other than a refusal for the limit is the result under every greater limit. -/
theorem compile_eq_of_le (hle : limit ≤ limit')
    (h : ∀ line n, compile source limit ≠ .error (.nestingTooDeep line n)) :
    compile source limit' = compile source limit := by
  simp only [compile] at h ⊢
  cases hread :
    Parser.elements limit (source.toList.length + 1) [] (Cursor.start source.toList) with
  | error e =>
    rw [hread] at h
    exact absurd rfl (h _ limit)
  | ok result => rw [Parser.elements_extends hle _ _ _ _ hread]

/-- **Blocks nested too deep are reported at the first one** that lies inside as many blocks as the
limit admits. -/
theorem compile_eq_error_of_depth (hderives : Derives source.toList t.nodes)
    (hdepth : limit < t.depth) :
    ∃ before, FirstBlockInside limit source.toList before ∧
      compile source limit = .error (.nestingTooDeep (Text.lineNumber before) limit) := by
  obtain ⟨before, e, he, hinside, hrefused⟩ :=
    Parser.elements_refused limit (source.toList.length + 1) _ _ hderives (Nat.lt_succ_self _)
      (Cursor.start source.toList) [] limit (List.append_nil _).symm (Text.stops_nil _)
      (Nat.zero_add _) hdepth
  have hoffset : e.offset = Text.utf8Length before := hrefused.offset.trans (Nat.zero_add _)
  refine ⟨before, ⟨hinside, hrefused.block, fun other hother hblock => ?_⟩, ?_⟩
  · -- the reading stops before the other block or at it, and it stops behind `before`
    obtain ⟨kind, r, rest, hr, hsource⟩ := hblock.exists_openTag
    have hlength : other.length < source.toList.length + 1 := by
      rw [hsource, List.length_append]
      omega
    obtain ⟨front, e', he', hstops⟩ := Parser.elements_halts limit (source.toList.length + 1) limit
      other hother hlength (Cursor.start source.toList) kind r rest hr hsource (Nat.zero_add _)
    obtain rfl : e = e' := Except.error.inj (he.symm.trans he')
    have hoffset' : e.offset = Text.utf8Length front := hstops.offset.trans (Nat.zero_add _)
    have hfront : front <+: source.toList := hstops.front.trans ⟨_, hsource.symm⟩
    obtain rfl : before = front :=
      Text.eq_of_prefix_of_utf8Length_eq hrefused.front hfront (hoffset.symm.trans hoffset')
    exact hstops.front
  · obtain ⟨rest, hrest⟩ := hrefused.front
    simp only [compile, he, hoffset]
    rw [← hrest, Text.splitAtOffset_length_append]

end Template

end DocTemplate
