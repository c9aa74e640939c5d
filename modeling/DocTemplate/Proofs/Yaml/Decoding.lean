import DocTemplate.Yaml.Tree
import Mathlib.Data.List.Forall2

/-!
# What a reading of a document gives

A reading follows aliases and stops at a limit of them. What it makes of a node apart from that is a
view of the node (`Document.view?`), and a reading is met from two sides. What it ensures holds of every
value that it gives, whatever the limit (`Decoding.Ensures`). What it gives is certain where there is
room for as many aliases as it costs (`Decoding.Gives`). Both are put together from parts, and for the
reading of a list there is one rule each that asks about a single step (`ensures_foldlM`,
`gives_foldlM`).
-/

namespace DocTemplate.Yaml

/-! ### Views of nodes -/

/-- The text of a scalar. -/
def Tree.text? : Tree → Option String
  | .scalar _ text _ => some text
  | _ => none

/-- The entries of a mapping. A scalar without any characters counts as a mapping without entries. -/
def Tree.entries? : Tree → Option (List (Tree × Tree))
  | .mapping _ entries => some entries
  | .scalar _ text style => if text.isEmpty ∧ style = .plain then some [] else none
  | _ => none

namespace Document

variable {α : Type}

/-- The node itself, or the one that it stands for if it is an alias. -/
def node? (d : Document) : Tree → Option Tree
  | .alias anchor => d.target? anchor
  | tree => some tree

/-- A view of a node, or of the one that it stands for. -/
def view? (d : Document) (view : Tree → Option α) (tree : Tree) : Option α :=
  (d.node? tree).bind view

/-- The reading that gives the view of a node. -/
def read (d : Document) (view : Tree → Option α) (tree : Tree) : Decoding α := do
  StateT.lift (view (← d.follow tree))

/-- The number of aliases that may be followed. -/
def aliasLimit (d : Document) : Nat :=
  d.eventCount * aliasesPerEvent

theorem run_follow_alias (d : Document) (anchor n : Nat) :
    (d.follow (.alias anchor)).run n =
      if d.aliasLimit ≤ n then none else (d.target? anchor).map fun node => (node, n + 1) := by
  change (if d.aliasLimit ≤ n then failure else _ : Decoding Tree).run n = _
  split
  · rfl
  · cases d.target? anchor <;> rfl

theorem scalarText_eq_read (d : Document) (tree : Tree) : d.scalarText tree = d.read Tree.text? tree := by
  refine congrArg _ (funext fun node => ?_)
  cases node <;> rfl

theorem entries_eq_read (d : Document) (tree : Tree) : d.entries tree = d.read Tree.entries? tree := by
  refine congrArg _ (funext fun node => ?_)
  cases node with
  | scalar tag text style =>
    by_cases h : text.isEmpty ∧ style = .plain
    · simp only [Tree.entries?, if_pos h]
      rfl
    · simp only [Tree.entries?, if_neg h]
      rfl
  | sequence | mapping | «alias» => rfl

end Document

namespace Decoding

variable {α β : Type} {d : Document} {tree node : Tree}

/-! ### What a reading ensures -/

section Ensures

variable {p : α → Prop} {q : β → Prop}

/-- Whatever is read has a property. -/
def Ensures (x : Decoding α) (p : α → Prop) : Prop :=
  ∀ n a n', x.run n = some (a, n') → p a

theorem ensures_true (x : Decoding α) : Ensures x fun _ => True := fun _ _ _ _ => trivial

theorem ensures_pure {a : α} (h : p a) : Ensures (pure a) p := by
  rintro n _ n' ⟨⟩
  exact h

theorem ensures_failure : Ensures (failure : Decoding α) p := by
  rintro n a n' ⟨⟩

theorem Ensures.bind {x : Decoding α} {f : α → Decoding β} (hx : Ensures x p)
    (hf : ∀ a, p a → Ensures (f a) q) : Ensures (x >>= f) q := by
  intro n b n' h
  rw [StateT.run_bind] at h
  obtain ⟨⟨a, n''⟩, ha, hb⟩ := Option.bind_eq_some_iff.mp h
  exact hf a (hx n a n'' ha) n'' b n' hb

/-- A reading that ensures what is impossible gives nothing. -/
theorem Ensures.run_eq_none {x : Decoding α} (h : Ensures x fun _ => False) (n : Nat) :
    x.run' n = none := by
  change (x.run n).map Prod.fst = none
  cases hrun : x.run n with
  | none => rfl
  | some result => exact (h n result.1 result.2 hrun).elim

/-- An invariant of the steps is one of the whole run. -/
theorem ensures_foldlM {f : α → β → Decoding α} (hf : ∀ a b, p a → Ensures (f a b) p) {start : α}
    (hstart : p start) (items : List β) : Ensures (items.foldlM f start) p := by
  induction items generalizing start with
  | nil => exact ensures_pure hstart
  | cons item items ih =>
    rw [List.foldlM_cons]
    exact (hf start item hstart).bind fun a ha => ih ha

/-- A run does not succeed if one of its steps never does. -/
theorem ensures_foldlM_false {f : α → β → Decoding α} {items : List β} {item : β}
    (hmem : item ∈ items) (hf : ∀ a, Ensures (f a item) fun _ => False) (start : α) :
    Ensures (items.foldlM f start) fun _ => False := by
  induction items generalizing start with
  | nil => cases hmem
  | cons first items ih =>
    rw [List.foldlM_cons]
    rcases List.mem_cons.mp hmem with rfl | hmem
    · exact (hf start).bind fun _ h => h.elim
    · exact (ensures_true _).bind fun a _ => ih hmem a

end Ensures

/-! ### What a reading gives -/

section Gives

variable {limit cost cost' : Nat} {a : α} {b : β}

/-- Unless it stops because too few aliases more may be followed, the reading gives the value, and for
no more of them than it costs. -/
def Gives (limit : Nat) (x : Decoding α) (a : α) (cost : Nat) : Prop :=
  ∀ n, (∃ n', n' ≤ n + cost ∧ x.run n = some (a, n')) ∨ (limit < n + cost ∧ x.run n = none)

theorem gives_pure (limit : Nat) (a : α) : Gives limit (pure a) a 0 :=
  fun n => Or.inl ⟨n, Nat.le_refl n, rfl⟩

theorem gives_lift (limit : Nat) {x : Option α} (h : x = some a) :
    Gives limit (StateT.lift x) a 0 :=
  fun n => Or.inl ⟨n, Nat.le_refl n, by rw [h]; rfl⟩

theorem Gives.mono {x : Decoding α} (h : Gives limit x a cost) (hcost : cost ≤ cost') :
    Gives limit x a cost' := by
  intro n
  rcases h n with ⟨n', hn', hrun⟩ | ⟨hlimit, hrun⟩
  · exact Or.inl ⟨n', by omega, hrun⟩
  · exact Or.inr ⟨by omega, hrun⟩

theorem Gives.bind {x : Decoding α} {f : α → Decoding β} (hx : Gives limit x a cost)
    (hf : Gives limit (f a) b cost') : Gives limit (x >>= f) b (cost' + cost) := by
  intro n
  simp only [StateT.run_bind]
  rcases hx n with ⟨n', hn', hrun⟩ | ⟨hlimit, hrun⟩
  · rcases hf n' with ⟨n'', hn'', hrun'⟩ | ⟨hlimit, hrun'⟩
    · exact Or.inl ⟨n'', by omega, by rw [hrun]; exact hrun'⟩
    · exact Or.inr ⟨by omega, by rw [hrun]; exact hrun'⟩
  · exact Or.inr ⟨by omega, by rw [hrun]; rfl⟩

/-- What follows on a reading may choose its value once the first one is known. -/
theorem Gives.exists_bind {x : Decoding α} {f : α → Decoding β} {Q : β → Nat → Prop}
    (hx : Gives limit x a cost)
    (hf : ∃ b cost', Gives limit (f a) b cost' ∧ Q b (cost' + cost)) :
    ∃ b cost', Gives limit (x >>= f) b cost' ∧ Q b cost' := by
  obtain ⟨b, cost', hb, hQ⟩ := hf
  exact ⟨b, cost' + cost, hx.bind hb, hQ⟩

/-- A value that is made of what a reading gives. -/
theorem Gives.bind_pure {x : Decoding α} (h : Gives limit x a cost) (f : α → β) :
    Gives limit (x >>= fun a => pure (f a)) (f a) cost :=
  (h.bind (f := fun a => pure (f a)) (gives_pure limit (f a))).mono (Nat.le_of_eq (Nat.zero_add cost))

/-- Nothing else is read. -/
theorem Gives.ensures {x : Decoding α} (h : Gives limit x a cost) : Ensures x (· = a) := by
  intro n a' n' hrun
  rcases h n with ⟨_, -, hrun'⟩ | ⟨-, hrun'⟩
  · exact congrArg Prod.fst (Option.some.inj (hrun.symm.trans hrun'))
  · cases hrun.symm.trans hrun'

/-- Where there is room, the value is read. -/
theorem Gives.run {x : Decoding α} (h : Gives limit x a cost) {n : Nat} (hn : n + cost ≤ limit) :
    x.run' n = some a := by
  rcases h n with ⟨n', -, hrun⟩ | ⟨hlimit, -⟩
  · change (x.run n).map Prod.fst = _
    rw [hrun]
    rfl
  · omega

/-- A run gives the value at which its states arrive, if a property of a state and the items that are
left tells each step. Every item may cost a fixed number of aliases, and beyond that a step may use up
room that its state has. -/
theorem gives_foldlM {f : α → β → Decoding α} (P : List β → α → Prop) (room : α → Nat) (k : Nat)
    {stop : α} (hnil : ∀ s, P [] s → s = stop)
    (hcons : ∀ item items s, P (item :: items) s → ∃ s' cost,
      Gives limit (f s item) s' cost ∧ cost + room s' ≤ k + room s ∧ P items s')
    {items : List β} {start : α} (h : P items start) :
    Gives limit (items.foldlM f start) stop (k * items.length + room start) := by
  induction items generalizing start with
  | nil =>
    obtain rfl := hnil start h
    exact (gives_pure limit start).mono (Nat.zero_le _)
  | cons item items ih =>
    obtain ⟨next, cost, hstep, hroom, hnext⟩ := hcons item items start h
    rw [List.foldlM_cons]
    refine (hstep.bind (ih hnext)).mono ?_
    rw [List.length_cons, Nat.mul_succ]
    omega

/-- A run over items that are read one for one gives what their values make one after the other. -/
theorem gives_foldlM_foldl {γ : Type} {R : β → γ → Prop} {f : α → β → Decoding α} {g : α → γ → α}
    {k : Nat} (hf : ∀ s b c, R b c → Gives limit (f s b) (g s c) k) {items : List β}
    {values : List γ} (h : List.Forall₂ R items values) (start : α) :
    Gives limit (items.foldlM f start) (values.foldl g start) (k * items.length) := by
  induction h generalizing start with
  | nil => exact gives_pure limit start
  | @cons item value items values hitem _ ih =>
    rw [List.foldlM_cons]
    refine ((hf start item value hitem).bind (ih (g start value))).mono (Nat.le_of_eq ?_)
    rw [List.length_cons, Nat.mul_succ]

theorem gives_follow (h : d.node? tree = some node) : Gives d.aliasLimit (d.follow tree) node 1 := by
  cases tree with
  | «alias» anchor =>
    have htarget : d.target? anchor = some node := h
    intro n
    rw [Document.run_follow_alias, htarget]
    split
    next hlimit => exact Or.inr ⟨by omega, rfl⟩
    next hlimit => exact Or.inl ⟨n + 1, Nat.le_refl _, rfl⟩
  | scalar | sequence | mapping =>
    cases h
    exact (gives_pure _ _).mono (Nat.zero_le 1)

/-- The view of a node is read for at most one alias. -/
theorem gives_read {view : Tree → Option α} (h : d.view? view tree = some a) :
    Gives d.aliasLimit (d.read view tree) a 1 := by
  obtain ⟨node, hnode, hview⟩ := Option.bind_eq_some_iff.mp h
  exact (gives_follow hnode).bind (f := fun node => StateT.lift (view node)) (gives_lift _ hview)

end Gives

end Decoding

end DocTemplate.Yaml
