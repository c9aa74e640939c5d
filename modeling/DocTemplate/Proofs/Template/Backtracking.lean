import DocTemplate.Proofs.Template.Progress
import DocTemplate.Proofs.Template.Trace
import Mathlib.Data.List.Nodup

/-!
# No block is read twice

A reader that meets an opening tag reads the block behind it, and if the block turns out not to be one
it goes back to the tag. Were the text read again from there in another way, a source with many nested
blocks could take exponential time. It is not: **the opening tags that are read are read in the order of
the source, each once, and after the first block that is given up no tag is read any more**
(`Template.blocks_entered_once`).

The reason is a cascade. A block that is given up leaves the reader in front of its opening tag
(`Cursor.Blocked`). Nothing else that can be read begins in this way: no block of the other kind, no
leaf, no middle tag and no closing tag. So the branch ends here, the block around it is not closed
and is given up as well, and so on to the outermost branch, which ends before the end of the source.
The source is then refused where something is missing, and never for its nesting, since this is found
at a tag that is read.

`Cursor.Tries` says what can happen to blocks from a cursor on, and `Cursor.Ends` how a reading from
a cursor can end. Two readings in a row end as the second does, unless the first is stuck
(`Cursor.Ends.bind`); each reader is then a matter of its own steps.
-/

namespace DocTemplate

open Text (utf8Length)

/-! ### In front of an opening tag -/

/-- An opening tag stands at a cursor. -/
def Cursor.Blocked (s : Cursor) : Prop :=
  ∃ kind r, BlockKind.openTag kind r <+: s.rest

namespace Cursor.Blocked

variable {s : Cursor}

theorem ne_nil (h : s.Blocked) : s.rest ≠ [] := by
  obtain ⟨kind, r, hprefix⟩ := h
  intro hnil
  rw [hnil] at hprefix
  exact kind.openTag_ne_nil r (List.prefix_nil.mp hprefix)

/-- No reference between dollars stands where an opening tag does. -/
theorem not_variableTag (h : s.Blocked) {r : Reference} (hr : r.IsWritable) :
    ¬r.variableTag <+: s.rest := by
  obtain ⟨kind, r', hprefix⟩ := h
  rintro ⟨rest, hrest⟩
  rw [← hrest] at hprefix
  exact BlockKind.not_openTag_prefix_variableTag hr rest hprefix

theorem not_middle (h : s.Blocked) (kind : BlockKind) : ¬kind.middle <+: s.rest := by
  obtain ⟨r, hr, -, heq⟩ := kind.exists_middle_eq
  rw [heq]
  exact h.not_variableTag hr

theorem not_closing (h : s.Blocked) (kind : BlockKind) : ¬kind.closing <+: s.rest := by
  obtain ⟨r, hr, -, heq⟩ := kind.exists_closing_eq
  rw [heq]
  exact h.not_variableTag hr

theorem of_reads_nil (h : s.Blocked) {t : Cursor} (hst : s.Reads [] t) : t.Blocked := by
  obtain ⟨kind, r, hprefix⟩ := h
  exact ⟨kind, r, hst.rest_of_nil ▸ hprefix⟩

/-- Nor does a leaf. -/
theorem leaf_eq (h : s.Blocked) : ∃ t, Parser.leaf s = (none, t) ∧ s.Reads [] t := by
  rcases Parser.leaf_outcome s with ⟨text, node, t, -, hst, hleaf⟩ | ⟨t, ht, hst, -⟩
  · obtain ⟨kind, r, hprefix⟩ := h
    exact absurd (hst.rest ▸ hprefix) (hleaf.not_openTag kind r)
  · exact ⟨t, ht, hst⟩

end Cursor.Blocked

/-! ### What happens to blocks -/

namespace Cursor

variable {s t : Cursor} {text : List Char} {offset : Nat} {opened opened' abandoned : List Nat}
  {events events' : List BlockEvent}

/-- An opening tag stands at an offset, at a cursor or behind it. -/
def OpensAt (s : Cursor) (offset : Nat) : Prop :=
  ∃ (before after : List Char) (kind : BlockKind) (r : Reference), r.IsWritable ∧
    s.rest = before ++ (kind.openTag r ++ after) ∧ offset = s.pos + utf8Length before

theorem OpensAt.pos_le (h : s.OpensAt offset) : s.pos ≤ offset := by
  obtain ⟨before, after, kind, r, -, -, rfl⟩ := h
  exact Nat.le_add_right _ _

theorem OpensAt.of_reads (h : t.OpensAt offset) (hst : s.Reads text t) : s.OpensAt offset := by
  obtain ⟨before, after, kind, r, hr, hrest, rfl⟩ := h
  refine ⟨text ++ before, after, kind, r, hr, ?_, ?_⟩
  · rw [hst.rest, hrest, List.append_assoc]
  · rw [hst.pos, Text.utf8Length_append, Nat.add_assoc]

/-- What happens to blocks from a cursor on: opening tags at some offsets are read in the order of the
source, and after that blocks that were opened are given up. -/
structure Tries (s : Cursor) (opened abandoned : List Nat) (events : List BlockEvent) : Prop where
  events_eq : events = opened.map .opened ++ abandoned.map .abandoned
  increasing : opened.Pairwise (· < ·)
  opensAt : ∀ offset ∈ opened, s.OpensAt offset
  subset : abandoned ⊆ opened

namespace Tries

theorem nil (s : Cursor) : s.Tries [] [] [] :=
  ⟨rfl, .nil, by simp, by simp⟩

/-- The opening tag at a cursor is read. -/
theorem opening {kind : BlockKind} {r : Reference} (hr : r.IsWritable)
    (hst : s.Reads (kind.openTag r) t) : s.Tries [s.pos] [] [.opened s.pos] where
  events_eq := rfl
  increasing := List.pairwise_singleton _ _
  opensAt := by
    rintro offset hmem
    obtain rfl := List.mem_singleton.mp hmem
    exact ⟨[], t.rest, kind, r, hr, hst.rest, rfl⟩
  subset := List.nil_subset _

/-- As long as no block is given up, what happens from a later cursor on comes after what happened
before. -/
theorem append (h : s.Tries opened [] events) (hbound : ∀ offset ∈ opened, offset < t.pos)
    (hst : s.Reads text t) (h' : t.Tries opened' abandoned events') :
    s.Tries (opened ++ opened') abandoned (events ++ events') where
  events_eq := by
    rw [h.events_eq, h'.events_eq, List.map_nil, List.append_nil, List.map_append,
      List.append_assoc]
  increasing := List.pairwise_append.mpr ⟨h.increasing, h'.increasing, fun a ha b hb =>
    Nat.lt_of_lt_of_le (hbound a ha) (h'.opensAt b hb).pos_le⟩
  opensAt offset hmem := (List.mem_append.mp hmem).elim (h.opensAt offset) fun hmem' =>
    (h'.opensAt offset hmem').of_reads hst
  subset := List.subset_append_of_subset_right opened h'.subset

/-- A block that was opened may be given up. -/
theorem abandon (h : s.Tries opened abandoned events) (hmem : offset ∈ opened) :
    s.Tries opened (abandoned ++ [offset]) (events ++ [.abandoned offset]) where
  events_eq := by
    rw [h.events_eq, List.map_append, List.append_assoc]
    rfl
  increasing := h.increasing
  opensAt := h.opensAt
  subset := List.append_subset.mpr ⟨h.subset, by simpa using hmem⟩

/-- What happens inside a block happens from a cursor on that does not count it. -/
theorem leave {depth : Nat} (h : Tries { s with depth := depth } opened abandoned events) :
    s.Tries opened abandoned events :=
  ⟨h.events_eq, h.increasing, h.opensAt, h.subset⟩

end Tries

/-! ### How a reading ends -/

variable {β γ : Type} {Stuck : β → Cursor → Prop} {Stuck' : γ → Cursor → Prop}

/-- How a reading from a cursor can end. It is refused, or it ends behind what it read; until then no
block is given up, and the tags that are read stand before its end. Or it is stuck, in whatever sense,
and blocks may have been given up. -/
inductive Ends (s : Cursor) (Stuck : β → Cursor → Prop) : Traced (β × Cursor) → Prop
  | refused {opened : List Nat} {events : List BlockEvent} (e : TooDeep)
      (h : s.Tries opened [] events) : Ends s Stuck ⟨.error e, events⟩
  | read {opened : List Nat} {events : List BlockEvent} {text : List Char} {t : Cursor} (b : β)
      (hst : s.Reads text t) (h : s.Tries opened [] events)
      (hbound : ∀ offset ∈ opened, offset < t.pos) : Ends s Stuck ⟨.ok (b, t), events⟩
  | stuck {opened abandoned : List Nat} {events : List BlockEvent} {b : β} {t : Cursor}
      (hstuck : Stuck b t) (h : s.Tries opened abandoned events) : Ends s Stuck ⟨.ok (b, t), events⟩

namespace Ends

/-- Nothing happens to blocks. -/
theorem pure (b : β) (hst : s.Reads text t) : s.Ends Stuck (Pure.pure (b, t)) :=
  .read b hst (.nil s) (by simp)

/-- After what happened on the way to it, a reading ends as it would by itself. -/
theorem after {x : Traced (β × Cursor)} (hx : t.Ends Stuck x) (hst : s.Reads text t)
    (h : s.Tries opened [] events) (hbound : ∀ offset ∈ opened, offset < t.pos) :
    s.Ends Stuck (x.after events) := by
  cases hx with
  | refused e h' => exact .refused e (h.append hbound hst h')
  | read b htu h' hbound' =>
    refine .read b (hst.trans htu) (h.append hbound hst h') fun offset hmem => ?_
    rcases List.mem_append.mp hmem with hmem | hmem
    · exact Nat.lt_of_lt_of_le (hbound offset hmem) htu.pos_le
    · exact hbound' offset hmem
  | stuck hstuck h' => exact .stuck hstuck (h.append hbound hst h')

theorem of_reads {x : Traced (β × Cursor)} (hx : t.Ends Stuck x) (hst : s.Reads text t) :
    s.Ends Stuck x :=
  hx.after hst (.nil s) (by simp)

/-- **Two readings in a row** end as the second does, if a reading that is stuck after the first is
stuck after the second without anything happening in it. -/
theorem bind {x : Traced (β × Cursor)} {f : β × Cursor → Traced (γ × Cursor)}
    (hx : s.Ends Stuck x) (hread : ∀ b (t : Cursor), t.Ends Stuck' (f (b, t)))
    (hstuck : ∀ b t, Stuck b t → ∃ c u, f (b, t) = Pure.pure (c, u) ∧ Stuck' c u) :
    s.Ends Stuck' (x >>= f) := by
  cases hx with
  | refused e h => exact .refused e h
  | @read _ _ _ t b hst h hbound => exact (hread b t).after hst h hbound
  | @stuck _ _ events b t hb h =>
    obtain ⟨c, u, heq, hc⟩ := hstuck b t hb
    rw [Traced.ok_bind, heq, Traced.pure_eq, Traced.after_mk, List.append_nil]
    exact .stuck hc h

end Ends

end Cursor

/-! ### The readers -/

namespace Traced

open DocTemplate.Parser (Parts eatTerminator eat_outcome eat_of_not_prefix)

/-- A reader of branches is stuck only in front of an opening tag. -/
def PartReader.Settles (inner : PartReader) : Prop :=
  ∀ s : Cursor, s.Ends (fun _ t => t.Blocked) (inner s)

variable {limit : Nat} {inner : PartReader}

/-- Branches that are stuck are not closed, so that they are no branches. -/
theorem parts_ends (hinner : inner.Settles) (kind : BlockKind) (s : Cursor) :
    s.Ends (fun parts? _ => parts? = none) (parts inner kind s) := by
  rw [parts]
  refine (hinner s).bind (fun first t => ?_) fun first t hblocked => ?_
  · rcases eat_outcome kind.middle t with ⟨u, hu, htu⟩ | ⟨u, hu, htu, -⟩
    · simp only [hu]
      refine ((hinner u).bind (fun second v => ?_) fun second v hblocked => ?_).of_reads htu
      · rcases eat_outcome kind.closing v with ⟨w, hw, hvw⟩ | ⟨w, hw, hvw, -⟩
        all_goals
          simp only [hw]
          exact .pure _ hvw
      · obtain ⟨w, hw, -⟩ := eat_of_not_prefix (hblocked.not_closing kind)
        exact ⟨none, w, by simp only [hw], rfl⟩
    · rcases eat_outcome kind.closing u with ⟨v, hv, huv⟩ | ⟨v, hv, huv, -⟩
      all_goals
        simp only [hu, hv]
        exact .pure _ (htu.trans huv)
  · obtain ⟨u, hu, htu⟩ := eat_of_not_prefix (hblocked.not_middle kind)
    obtain ⟨v, hv, -⟩ := eat_of_not_prefix ((hblocked.of_reads_nil htu).not_closing kind)
    exact ⟨none, v, by simp only [hu, hv], rfl⟩

theorem contents_ends (hinner : inner.Settles) (kind : BlockKind) (s : Cursor) :
    s.Ends (fun parts? _ => parts? = none) (contents inner kind s) := by
  have hread : ∀ s : Cursor, s.Reads (eatTerminator s).1 (eatTerminator s).2 := fun s =>
    .advance (Text.splitTerminator_append s.rest).symm
  have hst := hread s
  rw [contents]
  rcases hterm : eatTerminator s with ⟨_ | ⟨c, cs⟩, t⟩
  all_goals rw [hterm] at hst
  · exact (parts_ends hinner kind t).of_reads hst
  · refine ((parts_ends hinner kind t).bind ?_ ?_).of_reads hst
    · rintro (_ | ⟨first, second⟩) u
      · exact .pure none (.refl u)
      · have huv := hread u
        simp only
        rcases hclosed : eatTerminator u with ⟨_ | ⟨d, ds⟩, v⟩
        · exact .pure _ (.refl u)
        · rw [hclosed] at huv
          exact .pure _ huv
    · rintro _ u rfl
      exact ⟨none, u, rfl, rfl⟩

/-- **A block that is given up leaves the reader in front of its opening tag.** -/
theorem block_ends (hinner : inner.Settles) (kind : BlockKind) (s : Cursor) :
    s.Ends (fun node? t => node? = none ∧ ∃ r, kind.openTag r <+: t.rest)
      (block limit inner kind s) := by
  rw [block]
  rcases Parser.openTag_outcome kind s with ⟨r, t, ht, hst, hr⟩ | ⟨t, ht, hst, -⟩
  · have hopening := Cursor.Tries.opening hr hst
    have hbound : ∀ offset ∈ [s.pos], offset < t.pos := by
      simpa using hst.pos_lt (kind.openTag_ne_nil r)
    -- whatever happened inside the block, it is given up at its end
    have hgiveUp : ∀ {opened abandoned events}, t.Tries opened abandoned events →
        s.Tries (s.pos :: opened) (abandoned ++ [s.pos])
          (.opened s.pos :: (events ++ [.abandoned s.pos])) := fun h =>
      (hopening.append hbound hst h).abandon List.mem_cons_self
    have hback : kind.openTag r <+: s.rest := ⟨t.rest, hst.rest.symm⟩
    have hcontents := contents_ends hinner kind { t with depth := t.depth + 1 }
    simp only [ht, note_bind]
    split
    · exact .refused _ hopening
    generalize contents inner kind { t with depth := t.depth + 1 } = x at hcontents
    cases hcontents with
    | refused e h => exact .refused e (hopening.append hbound hst h.leave)
    | @read _ _ _ u parts? htu h hbound' =>
      cases parts? with
      | none => exact .stuck ⟨rfl, r, hback⟩ (hgiveUp h.leave)
      | some parts =>
        have hinside : t.Ends (fun (node? : Option Node) t =>
            node? = none ∧ ∃ r, kind.openTag r <+: t.rest) _ :=
          .read (some (Node.block kind r parts.1 parts.2)) (Cursor.Reads.leave htu) h.leave hbound'
        simpa [ok_bind, pure_eq] using hinside.after hst hopening hbound
    | stuck hnone h =>
      subst hnone
      exact .stuck ⟨rfl, r, hback⟩ (hgiveUp h.leave)
  · simp only [ht]
    exact .pure none hst

/-- **An element is stuck only in front of an opening tag.** Where a block of one kind was given up, no
block of the other kind stands, and no leaf. -/
theorem element_ends (hinner : inner.Settles) (s : Cursor) :
    s.Ends (fun node? t => node? = none ∧ t.Blocked) (element limit inner s) := by
  rw [element]
  refine (block_ends hinner .conditional s).bind ?_ ?_
  · rintro (_ | node) t
    · refine (block_ends hinner .loop t).bind ?_ ?_
      · rintro (_ | node) u
        · simp only
          rcases Parser.leaf_outcome u with ⟨text, node, v, hv, huv, -⟩ | ⟨v, hv, huv, -⟩
          all_goals
            rw [hv]
            exact .pure _ huv
        · exact .pure _ (.refl u)
      · rintro _ u ⟨rfl, r, hr⟩
        have hblocked : u.Blocked := ⟨.loop, r, hr⟩
        obtain ⟨v, hv, huv⟩ := hblocked.leaf_eq
        exact ⟨none, v, by simp only [hv], rfl, hblocked.of_reads_nil huv⟩
    · exact .pure _ (.refl t)
  · rintro _ t ⟨rfl, r, hr⟩
    have hblocked : t.Blocked := ⟨.conditional, r, hr⟩
    have hno : ∀ r' : Reference, ¬BlockKind.loop.openTag r' <+: t.rest := by
      obtain ⟨rest, hrest⟩ := hr
      exact fun r' => hrest ▸ BlockKind.not_openTag_prefix_openTag (by decide) r' r rest
    obtain ⟨u, hu, htu⟩ := Parser.openTag_eq_of_not_prefix hno
    obtain ⟨v, hv, huv⟩ := (hblocked.of_reads_nil htu).leaf_eq
    refine ⟨none, v, ?_, rfl, (hblocked.of_reads_nil htu).of_reads_nil huv⟩
    simp only [block, hu, pure_eq, ok_bind, hv, after_mk, List.append_nil]

/-- **Elements are stuck only in front of an opening tag.** -/
theorem elements_ends (limit steps : Nat) (nodes : List Node) (s : Cursor) :
    s.Ends (fun _ t => t.Blocked) (elements limit steps nodes s) := by
  induction steps generalizing nodes s with
  | zero => exact .pure _ (.refl s)
  | succ steps ih =>
    rw [elements]
    refine (element_ends (ih []) s).bind ?_ ?_
    · rintro (_ | node) t
      · exact .pure _ (.refl t)
      · exact ih _ t
    · rintro _ t ⟨rfl, hblocked⟩
      exact ⟨_, t, rfl, hblocked⟩

end Traced

/-! ### Sources -/

namespace Cursor.Tries

variable {s : Cursor} {opened abandoned : List Nat} {events : List BlockEvent}

theorem mem_opened_iff (h : s.Tries opened abandoned events) (offset : Nat) :
    .opened offset ∈ events ↔ offset ∈ opened := by
  simp [h.events_eq]

/-- No tag is read twice. -/
theorem count_le_one (h : s.Tries opened abandoned events) (offset : Nat) :
    events.count (.opened offset) ≤ 1 := by
  have hnodup : (opened.map BlockEvent.opened).Nodup :=
    (h.increasing.imp fun hlt => Nat.ne_of_lt hlt).map _ fun a b hne heq =>
      hne (BlockEvent.opened.inj heq)
  have hzero : (abandoned.map BlockEvent.abandoned).count (.opened offset) = 0 :=
    List.count_eq_zero.mpr (by simp)
  rw [h.events_eq, List.count_append, hzero]
  exact List.nodup_iff_count_le_one.mp hnodup _

/-- A block that is given up was opened before, and after it no tag is read. -/
theorem abandoned_cut (h : s.Tries opened abandoned events) {before after : List BlockEvent}
    {offset : Nat} (hcut : events = before ++ .abandoned offset :: after) :
    offset ∈ abandoned ∧ .opened offset ∈ before ∧ ∀ other, .opened other ∉ after := by
  -- the cut lies behind the tags that are read
  obtain ⟨front, hbefore, hrest⟩ : ∃ front, before = opened.map .opened ++ front ∧
      abandoned.map .abandoned = front ++ .abandoned offset :: after := by
    rcases List.append_eq_append_iff.mp (h.events_eq.symm.trans hcut) with
      ⟨front, hbefore, hrest⟩ | ⟨front, hopened, hrest⟩
    · exact ⟨front, hbefore, hrest⟩
    · cases front with
      | nil => exact ⟨[], by simpa using hopened.symm, by simpa using hrest.symm⟩
      | cons event front =>
        obtain ⟨rfl, -⟩ := List.cons.inj hrest
        have hmem : BlockEvent.abandoned offset ∈ opened.map BlockEvent.opened := by
          simp [hopened]
        simp at hmem
  have hoffset : offset ∈ abandoned := by
    have hmem : BlockEvent.abandoned offset ∈ abandoned.map BlockEvent.abandoned := by simp [hrest]
    simpa using hmem
  refine ⟨hoffset, ?_, fun other hother => ?_⟩
  · simp [hbefore, h.subset hoffset]
  · have hmem' : BlockEvent.opened other ∈ abandoned.map BlockEvent.abandoned := by
      simp [hrest, hother]
    simp at hmem'

end Cursor.Tries

namespace Template

variable {source : String} {limit : Nat}

/-- What is missing somewhere is missing at the end, or something else stands there. -/
theorem failureAt_cases (text : List Char) (offset : Nat) :
    ∃ line, failureAt text offset = .unexpectedEnd line ∨
      ∃ excerpt, failureAt text offset = .unexpected line excerpt := by
  rw [failureAt]
  simp only
  split
  · exact ⟨_, Or.inl rfl⟩
  · exact ⟨_, Or.inr ⟨_, rfl⟩⟩

/-- What happens to blocks in a source. If one is given up, something is missing in the source. -/
theorem exists_tries (source : String) (limit : Nat) :
    ∃ opened abandoned, (Cursor.start source.toList).Tries opened abandoned
        (compileTraced source limit).2 ∧
      (abandoned ≠ [] → ∃ offset, compile source limit = .error (failureAt source.toList offset)) := by
  have hends := Traced.elements_ends limit (source.toList.length + 1) []
    (Cursor.start source.toList)
  have hresult := Traced.elements_result limit (source.toList.length + 1) []
    (Cursor.start source.toList)
  simp only [compileTraced, compile, ← hresult]
  generalize Traced.elements limit (source.toList.length + 1) [] (Cursor.start source.toList) = x
    at hends
  cases hends with
  | refused e h => exact ⟨_, [], h, fun hne => absurd rfl hne⟩
  | read nodes hst h hbound => exact ⟨_, [], h, fun hne => absurd rfl hne⟩
  | @stuck _ _ _ nodes t hblocked h =>
    refine ⟨_, _, h, fun _ => ⟨t.furthest, ?_⟩⟩
    obtain ⟨c, rest, hrest⟩ := List.exists_cons_of_ne_nil hblocked.ne_nil
    simp only [hrest]

/-- **Reading comes to an end, and no block is read twice.** Every element that is read takes text, so
that elements are read as long as there are any. After a block that is given up, which was opened
before, no opening tag is read any more, and the source is refused because something is missing in
it. So every opening tag in a source is read at most once, and nothing else is read as one. -/
theorem blocks_entered_once (source : String) (limit : Nat) :
    (∀ steps s node t,
      Parser.element limit (Parser.elements limit steps []) s = .ok (some node, t) →
        s.pos < t.pos ∧ t.rest.length < s.rest.length) ∧
    (∀ steps nodes (s : Cursor), s.rest.length < steps →
      Parser.elements limit steps nodes s =
        match Parser.element limit (Parser.elements limit steps []) s with
        | .error e => .error e
        | .ok (none, t) => .ok (nodes.reverse, t)
        | .ok (some node, t) => Parser.elements limit steps (Node.snoc nodes node) t) ∧
    (compileTraced source limit).1 = compile source limit ∧
    (∀ before offset after,
      (compileTraced source limit).2 = before ++ .abandoned offset :: after →
        .opened offset ∈ before ∧ (∀ other, .opened other ∉ after) ∧
          ∃ line, compile source limit = .error (.unexpectedEnd line) ∨
            ∃ excerpt, compile source limit = .error (.unexpected line excerpt)) ∧
    ∀ offset, (compileTraced source limit).2.count (.opened offset) ≤ 1 ∧
      (.opened offset ∈ (compileTraced source limit).2 →
        ∃ (before after : List Char) (kind : BlockKind) (r : Reference), r.IsWritable ∧
          source.toList = before ++ (kind.openTag r ++ after) ∧ offset = utf8Length before) := by
  obtain ⟨opened, abandoned, htries, hmissing⟩ := exists_tries source limit
  refine ⟨fun steps s node t h => Parser.element_advances (Parser.elements_sound limit steps) h,
    fun steps nodes s h => Parser.elements_eq_loop limit nodes h, compileTraced_fst source limit,
    fun before offset after hcut => ?_, fun offset => ⟨htries.count_le_one offset, fun hmem => ?_⟩⟩
  · obtain ⟨hoffset, hbefore, hafter⟩ := htries.abandoned_cut hcut
    obtain ⟨place, hplace⟩ := hmissing (List.ne_nil_of_mem hoffset)
    obtain ⟨line, hline⟩ := failureAt_cases source.toList place
    refine ⟨hbefore, hafter, line, ?_⟩
    rw [hplace]
    exact hline.imp (congrArg _) fun ⟨excerpt, h⟩ => ⟨excerpt, congrArg _ h⟩
  · obtain ⟨before, after, kind, r, hr, hsource, hoffset⟩ :=
      htries.opensAt offset ((htries.mem_opened_iff offset).mp hmem)
    exact ⟨before, after, kind, r, hr, hsource, hoffset.trans (Nat.zero_add _)⟩

/-- A loop that is not closed, in a conditional that is closed behind it: both are given up, the loop
first, and each was entered once. -/
theorem blocks_entered_once_unclosed :
    (compileTraced "$if(a)$\n$for(b)$x$endif$" 2).2 =
        [.opened 0, .opened 8, .abandoned 8, .abandoned 0] ∧
      (∀ other, BlockEvent.opened other ∉ [BlockEvent.abandoned 0]) ∧
      (∃ line, compile "$if(a)$\n$for(b)$x$endif$" 2 = .error (.unexpectedEnd line) ∨
        ∃ excerpt, compile "$if(a)$\n$for(b)$x$endif$" 2 = .error (.unexpected line excerpt)) ∧
      ∃ (before after : List Char) (kind : BlockKind) (r : Reference), r.IsWritable ∧
        "$if(a)$\n$for(b)$x$endif$".toList = before ++ (kind.openTag r ++ after) ∧
          8 = utf8Length before := by
  have htrace : (compileTraced "$if(a)$\n$for(b)$x$endif$" 2).2 =
      [.opened 0, .opened 8, .abandoned 8, .abandoned 0] := by with_unfolding_all rfl
  obtain ⟨-, -, -, hcut, honce⟩ := blocks_entered_once "$if(a)$\n$for(b)$x$endif$" 2
  obtain ⟨-, hafter, herror⟩ := hcut [.opened 0, .opened 8] 8 [.abandoned 0] htrace
  exact ⟨htrace, hafter, herror, (honce 8).2 (by rw [htrace]; decide)⟩

end Template

end DocTemplate
