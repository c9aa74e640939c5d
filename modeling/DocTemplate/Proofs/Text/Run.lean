import DocTemplate.Text.Line

/-!
# Runs and terminators at the front of a text

What is read from the front of a text is read as far as it goes: a name takes all name characters
that are there, a piece of plain text goes up to the next dollar. Such a run and what follows it can
be told apart, because what follows stops the run (`Stops`): a text has only one cut into a run of a
class of characters and a rest that stops it (`run_append_inj`).

A line terminator is recognised at the front of a text as well. Whether there is one can be decided
from the part in front of a dollar (`BeginsWithTerminator.of_append`), so that what follows the next
dollar does not matter.
-/

namespace DocTemplate.Text

/-! ### Runs -/

section Runs

variable {p : Char → Bool} {a b : List Char}

/-- No character of a class stands at the front of a text. -/
def Stops (p : Char → Bool) : List Char → Prop
  | [] => True
  | c :: _ => p c = false

theorem stops_nil (p : Char → Bool) : Stops p [] := trivial

/-- A front part of a text that stops a run stops it, too. -/
theorem Stops.of_prefix (hb : Stops p b) (h : a <+: b) : Stops p a := by
  obtain ⟨rest, rfl⟩ := h
  cases a with
  | nil => exact stops_nil p
  | cons c a => exact hb

theorem Stops.append (ha : Stops p a) (hb : Stops p b) : Stops p (a ++ b) := by
  cases a with
  | nil => exact hb
  | cons c a => exact ha

/-- A text that begins with a character of the class does not stop a run. -/
theorem not_stops_append (hne : a ≠ []) (ha : ∀ c ∈ a, p c = true) (b : List Char) :
    ¬Stops p (a ++ b) := by
  cases a with
  | nil => exact absurd rfl hne
  | cons c a =>
    intro h
    exact Bool.false_ne_true (h.symm.trans (ha c List.mem_cons_self))

theorem takeWhile_append_of_stops (ha : ∀ c ∈ a, p c = true) (hb : Stops p b) :
    (a ++ b).takeWhile p = a := by
  rw [List.takeWhile_append_of_pos ha]
  cases b with
  | nil => rw [List.takeWhile_nil, List.append_nil]
  | cons c b => rw [List.takeWhile_cons, if_neg (by rw [hb]; decide), List.append_nil]

/-- **A text has one cut into a run and a rest that stops it.** -/
theorem run_append_inj {a' b' : List Char} (ha : ∀ c ∈ a, p c = true) (hb : Stops p b)
    (ha' : ∀ c ∈ a', p c = true) (hb' : Stops p b') (h : a ++ b = a' ++ b') :
    a = a' ∧ b = b' := by
  have hrun : a = a' := by
    rw [← takeWhile_append_of_stops ha hb, h, takeWhile_append_of_stops ha' hb']
  subst hrun
  exact ⟨rfl, List.append_cancel_left h⟩

theorem stops_dropWhile (p : Char → Bool) (text : List Char) : Stops p (text.dropWhile p) := by
  induction text with
  | nil => exact stops_nil p
  | cons c rest ih =>
    rw [List.dropWhile_cons]
    split
    · exact ih
    next h => exact Bool.eq_false_iff.mpr h

theorem Stops.of_forall (h : ∀ c ∈ a, p c = false) : Stops p a := by
  cases a with
  | nil => exact stops_nil p
  | cons c a => exact h c List.mem_cons_self

/-- From a text that stops a run nothing is dropped. -/
theorem Stops.dropWhile_eq (h : Stops p a) : a.dropWhile p = a := by
  cases a with
  | nil => rfl
  | cons c a =>
    have hc : p c = false := h
    exact List.dropWhile_cons_of_neg (by rw [hc]; exact Bool.false_ne_true)

/-- Plain text is a run of characters other than the dollar. -/
theorem bne_dollar_of_notMem (h : '$' ∉ a) : ∀ c ∈ a, (c != '$') = true := by
  intro c hc
  refine bne_iff_ne.mpr ?_
  rintro rfl
  exact h hc

/-- A text that begins with plain text does not begin with a dollar. -/
theorem append_ne_dollar_cons (hne : a ≠ []) (ha : '$' ∉ a) {text : List Char} :
    a ++ b ≠ '$' :: text := by
  intro h
  refine not_stops_append hne (bne_dollar_of_notMem ha) b ?_
  rw [h]
  rfl

end Runs

/-! ### Line terminators -/

/-- A line feed, alone or after a carriage return. -/
def IsTerminator (text : List Char) : Prop := text = ['\n'] ∨ text = ['\r', '\n']

/-- A line terminator stands at the front of a text. -/
def BeginsWithTerminator (text : List Char) : Prop :=
  ∃ terminator, IsTerminator terminator ∧ terminator <+: text

theorem IsTerminator.ne_nil {terminator : List Char} (h : IsTerminator terminator) :
    terminator ≠ [] := by
  rcases h with rfl | rfl <;> exact List.cons_ne_nil _ _

theorem IsTerminator.dollar_notMem {terminator : List Char} (h : IsTerminator terminator) :
    '$' ∉ terminator := by
  rcases h with rfl | rfl <;> decide

/-- A terminator at the front is split off. -/
theorem splitTerminator_append_of_isTerminator {terminator : List Char}
    (h : IsTerminator terminator) (text : List Char) :
    splitTerminator (terminator ++ text) = (terminator, text) := by
  rcases h with rfl | rfl <;> rfl

/-- A text without a terminator at its front is not split. -/
theorem splitTerminator_of_not_beginsWithTerminator {text : List Char}
    (h : ¬BeginsWithTerminator text) : splitTerminator text = ([], text) := by
  fun_cases splitTerminator text with
  | case1 rest => exact absurd ⟨['\r', '\n'], Or.inr rfl, List.prefix_append _ rest⟩ h
  | case2 rest => exact absurd ⟨['\n'], Or.inl rfl, List.prefix_append _ rest⟩ h
  | case3 => rfl

/-- Whether a text begins with a terminator is seen by splitting it. -/
theorem beginsWithTerminator_iff {text : List Char} :
    BeginsWithTerminator text ↔ (splitTerminator text).1 ≠ [] := by
  constructor
  · rintro ⟨terminator, hterm, rest, rfl⟩
    rw [splitTerminator_append_of_isTerminator hterm]
    exact hterm.ne_nil
  · intro h
    refine Classical.byContradiction fun hnot => h ?_
    exact congrArg Prod.fst (splitTerminator_of_not_beginsWithTerminator hnot)

instance (text : List Char) : Decidable (BeginsWithTerminator text) :=
  decidable_of_iff _ beginsWithTerminator_iff.symm

theorem trim_of_not_beginsWithTerminator {text : List Char} (h : ¬BeginsWithTerminator text) :
    trim text = text := by
  rw [trim, splitTerminator_of_not_beginsWithTerminator h]

theorem trim_append_of_isTerminator {terminator : List Char} (h : IsTerminator terminator)
    (text : List Char) : trim (terminator ++ text) = dropLastTerminator text := by
  rw [trim, splitTerminator_append_of_isTerminator h]
  obtain ⟨c, cs, rfl⟩ := List.exists_cons_of_ne_nil h.ne_nil
  rfl

theorem BeginsWithTerminator.append {a : List Char} (h : BeginsWithTerminator a) (b : List Char) :
    BeginsWithTerminator (a ++ b) := by
  obtain ⟨terminator, hterm, hprefix⟩ := h
  exact ⟨terminator, hterm, hprefix.trans (List.prefix_append a b)⟩

/-- What begins with a dollar adds nothing to a front part without dollars. -/
theorem prefix_of_prefix_append {front a b : List Char} (hfront : '$' ∉ front)
    (hb : Stops (· != '$') b) (h : front <+: a ++ b) : front <+: a := by
  rcases Nat.lt_or_ge a.length front.length with hlt | hge
  · cases b with
    | nil => rwa [List.append_nil] at h
    | cons c b =>
      obtain rfl : c = '$' := by simpa [Stops] using hb
      -- a front part that ends behind `a` would hold the dollar
      have hdollar : a ++ ['$'] <+: front :=
        List.prefix_of_prefix_length_le ⟨b, by simp⟩ h (by rw [List.length_append]; exact hlt)
      exact absurd (hdollar.subset (by simp)) hfront
  · exact List.prefix_of_prefix_length_le h (List.prefix_append a b) hge

/-- **What begins with a dollar adds nothing to a terminator in front of it.** -/
theorem BeginsWithTerminator.of_append {a b : List Char} (h : BeginsWithTerminator (a ++ b))
    (hb : Stops (· != '$') b) : BeginsWithTerminator a := by
  obtain ⟨terminator, hterm, hprefix⟩ := h
  exact ⟨terminator, hterm, prefix_of_prefix_append hterm.dollar_notMem hb hprefix⟩

/-- **A terminator where two texts meet** stands at the front of the first one already, unless that
is empty or the carriage return of a pair. -/
theorem BeginsWithTerminator.append_cases {a b : List Char} (h : BeginsWithTerminator (a ++ b)) :
    BeginsWithTerminator a ∨ (BeginsWithTerminator b ∧ (a = [] ∨ a = ['\r'])) := by
  obtain ⟨terminator, hterm, hprefix⟩ := h
  cases a with
  | nil => exact Or.inr ⟨⟨terminator, hterm, hprefix⟩, Or.inl rfl⟩
  | cons c a =>
    rcases hterm with rfl | rfl
    · obtain ⟨rfl, -⟩ := List.cons_prefix_cons.mp hprefix
      exact Or.inl ⟨['\n'], Or.inl rfl, List.prefix_append ['\n'] a⟩
    · obtain ⟨rfl, hfeed⟩ := List.cons_prefix_cons.mp hprefix
      cases a with
      | nil => exact Or.inr ⟨⟨['\n'], Or.inl rfl, hfeed⟩, Or.inr rfl⟩
      | cons d a =>
        obtain ⟨rfl, -⟩ := List.cons_prefix_cons.mp hfeed
        exact Or.inl ⟨['\r', '\n'], Or.inr rfl, List.prefix_append ['\r', '\n'] a⟩

end DocTemplate.Text
