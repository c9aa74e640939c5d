import DocTemplate.Proofs.Yaml.Decoding

/-!
# How large the mappings of a document are

Every entry of a mapping takes two events at least, and the mapping itself two more. So no mapping in a
document has more entries than the document has events, wherever it stands: in the outermost node or in
one that aliases stand for (`Document.Fits.length_entries_le`). A reading that goes through a fixed number
of mappings therefore follows only so many aliases for each event, however many of the nodes are aliases.

The nodes are followed through the putting together of the tree. Every node that is complete and every
collection that is open has fewer entries than there were events (`TreeBuilding.Fits`), and an event
adds one entry at most (`TreeBuilding.Fits.step`).
-/

namespace DocTemplate.Yaml

variable {n m : Nat}

/-- Every mapping in the tree has fewer entries than a number. -/
inductive Tree.Fits (n : Nat) : Tree → Prop
  /-- A scalar has none. -/
  | scalar (tag : Option Tag) (text : String) (style : ScalarStyle) : Fits n (.scalar tag text style)
  /-- A sequence has those of its items. -/
  | sequence {tag : Option Tag} {items : List Tree} (hitems : ∀ item ∈ items, Fits n item) :
      Fits n (.sequence tag items)
  /-- A mapping has few entries itself, and those of its keys and values do. -/
  | mapping {tag : Option Tag} {entries : List (Tree × Tree)} (hlength : entries.length < n)
      (hkeys : ∀ entry ∈ entries, Fits n entry.1) (hvalues : ∀ entry ∈ entries, Fits n entry.2) :
      Fits n (.mapping tag entries)
  /-- An alias has none. -/
  | alias (anchor : Nat) : Fits n (.alias anchor)

theorem Tree.Fits.mono {tree : Tree} (h : tree.Fits n) (hle : n ≤ m) : tree.Fits m := by
  induction h with
  | scalar tag text style => exact .scalar tag text style
  | sequence _ ih => exact .sequence ih
  | mapping hlength _ _ ihkeys ihvalues =>
    exact .mapping (Nat.lt_of_lt_of_le hlength hle) ihkeys ihvalues
  | «alias» anchor => exact .alias anchor

/-! ### Putting a tree together -/

/-- The nodes of an open collection are small, and so is the collection so far. -/
inductive TreeFrame.Fits (n : Nat) : TreeFrame → Prop
  /-- Items of a sequence. -/
  | sequence {tag : Option Tag} {mark : AnchorMark} {items : List Tree}
      (hitems : ∀ item ∈ items, item.Fits n) : Fits n (.sequence tag mark items)
  /-- Entries of a mapping, possibly with the key of the next. -/
  | mapping {tag : Option Tag} {mark : AnchorMark} {entries : List (Tree × Tree)}
      {key : Option Tree} (hlength : entries.length < n)
      (hkeys : ∀ entry ∈ entries, entry.1.Fits n) (hvalues : ∀ entry ∈ entries, entry.2.Fits n)
      (hkey : ∀ tree, key = some tree → tree.Fits n) : Fits n (.mapping tag mark entries key)

theorem TreeFrame.Fits.mono {frame : TreeFrame} (h : frame.Fits n) (hle : n ≤ m) :
    frame.Fits m := by
  cases h with
  | sequence hitems => exact .sequence fun item hitem => (hitems item hitem).mono hle
  | mapping hlength hkeys hvalues hkey =>
    exact .mapping (Nat.lt_of_lt_of_le hlength hle)
      (fun entry hentry => (hkeys entry hentry).mono hle)
      (fun entry hentry => (hvalues entry hentry).mono hle)
      fun tree htree => (hkey tree htree).mono hle

namespace TreeBuilding

/-- All that is open or complete is small. -/
structure Fits (n : Nat) (b : TreeBuilding) : Prop where
  /-- The open collections. -/
  frames : ∀ frame ∈ b.open_, frame.Fits n
  /-- The nodes with an anchor. -/
  anchored : ∀ entry ∈ b.anchored, entry.2.2.Fits n
  /-- The outermost node. -/
  root : ∀ tree, b.root = some tree → tree.Fits n

variable {b b' : TreeBuilding}

theorem Fits.mono (h : b.Fits n) (hle : n ≤ m) : b.Fits m where
  frames frame hframe := (h.frames frame hframe).mono hle
  anchored entry hentry := (h.anchored entry hentry).mono hle
  root tree htree := (h.root tree htree).mono hle

theorem Fits.mark (h : b.Fits n) (p : Properties) : (b.mark p).1.Fits n := by
  rw [TreeBuilding.mark]
  split
  · exact h
  · exact ⟨h.frames, h.anchored, h.root⟩

/-- To begin a collection adds a frame. -/
theorem Fits.open (h : b.Fits n) {frame : TreeFrame} (hframe : frame.Fits n) :
    ({ b with open_ := frame :: b.open_ } : TreeBuilding).Fits n where
  frames := List.forall_mem_cons.mpr ⟨hframe, h.frames⟩
  anchored := h.anchored
  root := h.root

/-- A complete node without an anchor makes the innermost open collection larger by one entry at
most. -/
theorem Fits.add_none (h : b.Fits (n + 1)) (hframes : ∀ frame ∈ b.open_, frame.Fits n) {tree : Tree}
    (htree : tree.Fits (n + 1)) : (b.add none tree).Fits (n + 1) := by
  obtain ⟨frames, names, nameCount, anchored, eventCount, root⟩ := b
  cases frames with
  | nil =>
    refine ⟨nofun, h.anchored, ?_⟩
    rintro _ ⟨⟩
    exact htree
  | cons frame outer =>
    have hinner : frame.Fits n := (List.forall_mem_cons.mp hframes).1
    have hplace {frame' : TreeFrame} (hframe' : frame'.Fits (n + 1)) :
        Fits (n + 1) ⟨frame' :: outer, names, nameCount, anchored, eventCount, root⟩ :=
      ⟨List.forall_mem_cons.mpr ⟨hframe', (List.forall_mem_cons.mp h.frames).2⟩, h.anchored, h.root⟩
    cases frame with
    | sequence tag mark items =>
      cases hinner.mono (Nat.le_succ n) with
      | sequence hitems => exact hplace (.sequence (List.forall_mem_cons.mpr ⟨htree, hitems⟩))
    | mapping tag mark entries key =>
      have hlength : entries.length < n := by cases hinner; assumption
      cases hinner.mono (Nat.le_succ n) with
      | mapping _ hkeys hvalues hkey =>
        cases key with
        | none =>
          refine hplace (.mapping (Nat.lt_succ_of_lt hlength) hkeys hvalues ?_)
          rintro _ ⟨⟩
          exact htree
        | some key =>
          exact hplace (.mapping (Nat.succ_lt_succ hlength)
            (List.forall_mem_cons.mpr ⟨hkey key rfl, hkeys⟩)
            (List.forall_mem_cons.mpr ⟨htree, hvalues⟩) nofun)

theorem Fits.add (h : b.Fits n) (mark : AnchorMark) {tree : Tree} (htree : tree.Fits n) :
    (b.add mark tree).Fits (n + 1) := by
  have hb := h.mono (Nat.le_succ n)
  have hnode := htree.mono (Nat.le_succ n)
  cases mark with
  | none => exact hb.add_none h.frames hnode
  | some place =>
    have hanchored : ({ b with anchored := (place.1, place.2, tree) :: b.anchored } :
        TreeBuilding).Fits (n + 1) :=
      ⟨hb.frames, List.forall_mem_cons.mpr ⟨hnode, hb.anchored⟩, hb.root⟩
    exact hanchored.add_none h.frames hnode

/-- **An event adds one entry at most.** -/
theorem Fits.take (h : b.Fits n) {event : Event} (htake : b.take event = some b') :
    b'.Fits (n + 1) := by
  cases event with
  | «alias» name =>
    obtain ⟨anchor, -, rfl⟩ := Option.map_eq_some_iff.mp htake
    exact h.add none (.alias anchor)
  | scalar p text style =>
    cases htake
    exact (h.mark p).add _ (.scalar p.tag text style)
  | sequenceStart p =>
    cases htake
    exact ((h.mark p).mono (Nat.le_succ n)).open (.sequence nofun)
  | mappingStart p =>
    cases htake
    exact ((h.mark p).mono (Nat.le_succ n)).open (.mapping (Nat.succ_pos n) nofun nofun nofun)
  | sequenceEnd =>
    simp only [TreeBuilding.take] at htake
    split at htake
    next tag mark items outer hopen =>
      cases htake
      obtain ⟨hframe, houter⟩ := List.forall_mem_cons.mp (hopen ▸ h.frames)
      cases hframe with
      | sequence hitems =>
        have hrest : ({ b with open_ := outer } : TreeBuilding).Fits n :=
          ⟨houter, h.anchored, h.root⟩
        exact hrest.add mark (.sequence fun item hitem => hitems item (List.mem_reverse.mp hitem))
    next => cases htake
  | mappingEnd =>
    simp only [TreeBuilding.take] at htake
    split at htake
    next tag mark entries outer hopen =>
      cases htake
      obtain ⟨hframe, houter⟩ := List.forall_mem_cons.mp (hopen ▸ h.frames)
      cases hframe with
      | mapping hlength hkeys hvalues _ =>
        have hrest : ({ b with open_ := outer } : TreeBuilding).Fits n :=
          ⟨houter, h.anchored, h.root⟩
        refine hrest.add mark (.mapping (by rwa [List.length_reverse]) ?_ ?_)
        · exact fun entry hentry => hkeys entry (List.mem_reverse.mp hentry)
        · exact fun entry hentry => hvalues entry (List.mem_reverse.mp hentry)
    next => cases htake

theorem eventCount_mark (b : TreeBuilding) (p : Properties) :
    (b.mark p).1.eventCount = b.eventCount := by
  rw [mark]
  split <;> rfl

theorem eventCount_add (b : TreeBuilding) (mark : AnchorMark) (tree : Tree) :
    (b.add mark tree).eventCount = b.eventCount := by
  cases mark <;> simp only [add] <;> split <;> rfl

theorem eventCount_of_take {event : Event} (h : b.take event = some b') :
    b'.eventCount = b.eventCount := by
  cases event with
  | «alias» name =>
    obtain ⟨anchor, -, rfl⟩ := Option.map_eq_some_iff.mp h
    exact eventCount_add b none _
  | scalar p text style =>
    cases h
    exact (eventCount_add _ _ _).trans (eventCount_mark b p)
  | sequenceStart p | mappingStart p =>
    cases h
    exact eventCount_mark b p
  | sequenceEnd | mappingEnd =>
    simp only [take] at h
    split at h
    next =>
      cases h
      exact eventCount_add _ _ _
    next => cases h

theorem Fits.step (h : b.Fits b.eventCount) {event : Event} (hstep : b.step event = some b') :
    b'.Fits b'.eventCount := by
  obtain ⟨b'', htake, rfl⟩ := Option.map_eq_some_iff.mp hstep
  have hfits := h.take htake
  rw [← eventCount_of_take htake] at hfits
  exact ⟨hfits.frames, hfits.anchored, hfits.root⟩

theorem Fits.run (h : b.Fits b.eventCount) {events : List Event}
    (hrun : events.foldlM TreeBuilding.step b = some b') : b'.Fits b'.eventCount := by
  induction events generalizing b with
  | nil => exact Option.some.inj hrun ▸ h
  | cons event events ih =>
    rw [List.foldlM_cons] at hrun
    obtain ⟨next, hstep, hrun⟩ := Option.bind_eq_some_iff.mp hrun
    exact ih (h.step hstep) hrun

theorem fits_start : start.Fits start.eventCount := ⟨nofun, nofun, nofun⟩

end TreeBuilding

/-! ### Documents -/

namespace Document

variable {d : Document}

/-- The outermost node and those that aliases stand for are small. -/
structure Fits (d : Document) : Prop where
  /-- The outermost node. -/
  root : ∀ tree, d.root = some tree → tree.Fits d.eventCount
  /-- The nodes with an anchor. -/
  anchored : ∀ entry ∈ d.anchored, entry.2.2.Fits d.eventCount

theorem fits_of_ofText? {text : String} (h : ofText? text = some d) : d.Fits := by
  obtain ⟨tokens, -, h⟩ := Option.bind_eq_some_iff.mp h
  obtain ⟨events, -, h⟩ := Option.bind_eq_some_iff.mp h
  obtain ⟨b, hrun, h⟩ := Option.bind_eq_some_iff.mp h
  cases h
  have hb := TreeBuilding.fits_start.run hrun
  exact ⟨hb.root, hb.anchored⟩

theorem mem_of_target? {anchor : Nat} {tree : Tree} (h : d.target? anchor = some tree) :
    ∃ entry ∈ d.anchored, entry.2.2 = tree := by
  have hlater : ∀ (entries : List (Nat × Nat × Tree)) (entry : Nat × Nat × Tree),
      entries.foldl later entry ∈ entry :: entries := by
    intro entries entry
    induction entries generalizing entry with
    | nil => exact List.mem_cons_self
    | cons other rest ih =>
      rw [List.foldl_cons]
      rcases List.mem_cons.mp (ih (later entry other)) with heq | hmem
      · rw [heq, later]
        split <;> simp
      · exact List.mem_cons_of_mem _ (List.mem_cons_of_mem _ hmem)
  rw [target?] at h
  split at h
  · cases h
  · next entry rest hfilter =>
    cases h
    have hmem := hlater rest entry
    rw [← hfilter] at hmem
    exact ⟨_, (List.mem_filter.mp hmem).1, rfl⟩

theorem Fits.node? (hd : d.Fits) {tree node : Tree} (h : tree.Fits d.eventCount)
    (hnode : d.node? tree = some node) : node.Fits d.eventCount := by
  cases tree with
  | «alias» anchor =>
    obtain ⟨entry, hmem, rfl⟩ := mem_of_target? hnode
    exact hd.anchored entry hmem
  | scalar | sequence | mapping =>
    cases hnode
    exact h

/-- **A mapping of a document has no more entries than the document has events.** -/
theorem Fits.length_entries_le (hd : d.Fits) {tree : Tree} (h : tree.Fits d.eventCount)
    {entries : List (Tree × Tree)} (hentries : d.view? Tree.entries? tree = some entries) :
    entries.length ≤ d.eventCount := by
  obtain ⟨node, hnode, hview⟩ := Option.bind_eq_some_iff.mp hentries
  cases hd.node? h hnode with
  | mapping hlength =>
    cases hview
    exact Nat.le_of_lt hlength
  | scalar =>
    simp only [Tree.entries?] at hview
    split at hview
    · cases hview
      exact Nat.zero_le _
    · cases hview
  | sequence | «alias» => cases hview

end Document

end DocTemplate.Yaml
