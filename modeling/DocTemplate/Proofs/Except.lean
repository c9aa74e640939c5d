import Mathlib.Data.List.Basic

/-!
# Computations that may fail

Two computations one after the other succeed if both do (`exists_of_bind_eq_ok`). The causes for which
they fail are those of the one and of the other (`FailsWith.bind`), and it makes no difference whether
they are renamed on the way or at the end (`mapError_bind`).

The members of a list are read in order, so all of them are read (`mapM_eq_ok_of_forall`), or the first
one that is not read decides how the reading fails (`mapM_eq_error_iff`).
-/

namespace DocTemplate

variable {α β ε : Type}

theorem exists_of_bind_eq_ok {x : Except ε α} {f : α → Except ε β} {b : β}
    (h : (x >>= f) = .ok b) : ∃ a, x = .ok a ∧ f a = .ok b := by
  cases x with
  | error e => cases h
  | ok a => exact ⟨a, rfl, h⟩

/-! ### Causes -/

section MapError

variable {ε' ε'' : Type}

theorem mapError_bind (cause : ε → ε') (x : Except ε α) (f : α → Except ε β) :
    (x >>= f).mapError cause = x.mapError cause >>= fun a => (f a).mapError cause := by
  cases x <;> rfl

theorem mapError_mapError (cause : ε → ε') (cause' : ε' → ε'') (x : Except ε α) :
    (x.mapError cause).mapError cause' = x.mapError fun e => cause' (cause e) := by
  cases x <;> rfl

end MapError

/-- Whatever a computation fails with has a property. -/
def FailsWith (P : ε → Prop) (x : Except ε α) : Prop :=
  ∀ e, x = .error e → P e

namespace FailsWith

variable {P : ε → Prop}

theorem bind {x : Except ε α} {f : α → Except ε β} (hx : FailsWith P x)
    (hf : ∀ a, FailsWith P (f a)) : FailsWith P (x >>= f) := by
  intro e h
  cases x with
  | error e' =>
    cases h
    exact hx e rfl
  | ok a => exact hf a e h

theorem mapError {ε' : Type} {cause : ε' → ε} (h : ∀ e, P (cause e)) (x : Except ε' α) :
    FailsWith P (x.mapError cause) := by
  intro e he
  cases x with
  | error e' =>
    cases he
    exact h e'
  | ok a => cases he

end FailsWith

/-! ### Reading a list -/

variable {f : α → Except ε β}

/-- A list is read if each of its members is. -/
theorem mapM_eq_ok_of_forall {g : α → β} {as : List α} (h : ∀ a ∈ as, f a = .ok (g a)) :
    as.mapM f = .ok (as.map g) := by
  induction as with
  | nil => rfl
  | cons a as ih =>
    rw [List.mapM_cons, h a List.mem_cons_self, ih fun b hb => h b (List.mem_cons_of_mem a hb)]
    rfl

/-- Only a list is read of which each member is. -/
theorem exists_of_mapM_eq_ok {as : List α} {bs : List β} (h : as.mapM f = .ok bs) {a : α}
    (ha : a ∈ as) : ∃ b, f a = .ok b := by
  induction as generalizing bs with
  | nil => cases ha
  | cons first rest ih =>
    rw [List.mapM_cons] at h
    obtain ⟨b, hfirst, h⟩ := exists_of_bind_eq_ok h
    obtain ⟨bs, hrest, -⟩ := exists_of_bind_eq_ok h
    rcases List.mem_cons.mp ha with rfl | hmem
    · exact ⟨b, hfirst⟩
    · exact ih hrest hmem

/-- **The first member that is not read is reported.** -/
theorem mapM_eq_error_iff {as : List α} {e : ε} :
    as.mapM f = .error e ↔ ∃ before a after, as = before ++ a :: after ∧
      (∀ b ∈ before, ∃ value, f b = .ok value) ∧ f a = .error e := by
  induction as with
  | nil => simp [pure, Except.pure]
  | cons a as ih =>
    rw [List.mapM_cons]
    cases ha : f a with
    | error e' =>
      change Except.error e' = .error e ↔ _
      refine ⟨fun h => ?_, ?_⟩
      · cases h
        exact ⟨[], a, as, rfl, by simp, ha⟩
      rintro ⟨_ | ⟨b, before⟩, x, after, heq, hbefore, hx⟩
      · obtain ⟨rfl, rfl⟩ := List.cons.inj heq
        cases ha.symm.trans hx
        rfl
      · obtain ⟨rfl, -⟩ := List.cons.inj heq
        obtain ⟨value, hvalue⟩ := hbefore a List.mem_cons_self
        cases ha.symm.trans hvalue
    | ok value =>
      have hrest : (Except.ok value >>= fun value =>
          as.mapM f >>= fun values => pure (value :: values)) = .error e ↔ as.mapM f = .error e := by
        cases as.mapM f <;> simp [bind, Except.bind, pure, Except.pure]
      refine hrest.trans (ih.trans ⟨?_, ?_⟩)
      · rintro ⟨before, x, after, rfl, hbefore, hx⟩
        exact ⟨a :: before, x, after, rfl, List.forall_mem_cons.mpr ⟨⟨value, ha⟩, hbefore⟩, hx⟩
      · rintro ⟨_ | ⟨b, before⟩, x, after, heq, hbefore, hx⟩
        · obtain ⟨rfl, rfl⟩ := List.cons.inj heq
          cases ha.symm.trans hx
        · obtain ⟨rfl, rfl⟩ := List.cons.inj heq
          exact ⟨before, x, after, rfl, (List.forall_mem_cons.mp hbefore).2, hx⟩

end DocTemplate
