import DocTemplate.Command.Run

/-!
# What a run reads

Before a command prints or writes a text it only reads, and reading leaves a world as it is: no file
is changed and nothing is printed (`LeavesWorld`). All that such a computation does is then to have a
result, and where computations follow one another so do their results on the same tree
(`FileTree.result_bind`).
-/

namespace DocTemplate

/-! ### Computations that leave the world alone -/

/-- Whatever the world is, it stays as it is. -/
def LeavesWorld {α : Type} (x : StateM World α) : Prop :=
  ∀ s, (x.run s).2 = s

namespace LeavesWorld

variable {α β : Type}

theorem of_pure (a : α) : LeavesWorld (pure a) := fun _ => rfl

theorem bind {x : StateM World α} {f : α → StateM World β} (hx : LeavesWorld x)
    (hf : ∀ a, LeavesWorld (f a)) : LeavesWorld (x >>= f) := by
  intro s
  rw [StateT.run_bind]
  exact (hf _ _).trans (hx s)

/-- One computation after another, the first of which may fail. -/
theorem bind_run {x : ExceptT CommandError (StateM World) α}
    {f : α → ExceptT CommandError (StateM World) β} (hx : LeavesWorld x.run)
    (hf : ∀ a, LeavesWorld (f a).run) : LeavesWorld (x >>= f).run := by
  rw [ExceptT.run_bind]
  refine hx.bind fun result => ?_
  cases result with
  | ok a => exact hf a
  | error e => exact of_pure _

theorem lift_run {x : StateM World α} (hx : LeavesWorld x) :
    LeavesWorld (liftM x : ExceptT CommandError (StateM World) α).run :=
  hx.bind fun _ => of_pure _

theorem attempt {ε : Type} (cause : ε → CommandError) (result : Except ε α) :
    LeavesWorld
      (DocTemplate.attempt cause result : ExceptT CommandError (StateM World) α).run :=
  of_pure _

/-! ### What the commands read -/

variable (c : Config) (k : Converter) (env : Environment) (path input : String)
  (given template bodyKey : Option String) (entries : List String)

theorem present : LeavesWorld (World.host.present path) := fun _ => rfl

theorem require (cause : FileError → CommandError) :
    LeavesWorld (World.host.require cause path).run := by
  have hread : LeavesWorld (World.host.read path) := fun _ => rfl
  exact hread.lift_run.bind_run fun _ => attempt cause _

theorem firstPresent (paths : List String) :
    LeavesWorld (World.host.firstPresent paths) := by
  induction paths with
  | nil => exact of_pure none
  | cons path rest ih =>
    refine (present path).bind fun found => ?_
    split
    · exact of_pure (some path)
    · exact ih

theorem find : LeavesWorld (Config.find World.host env given).run := by
  refine (firstPresent _).lift_run.bind_run fun found => ?_
  cases found with
  | none => exact attempt _ _
  | some path =>
    have hread : LeavesWorld
        (some <$> World.host.require CommandError.configFile path).run :=
      (require path _).bind_run fun _ => of_pure _
    exact hread.bind_run fun _ => attempt _ _

theorem templateAt : LeavesWorld (Command.templateAt World.host k template).run := by
  cases template with
  | none => exact of_pure _
  | some path => exact (require path _).bind_run fun _ => attempt _ _

theorem renderText :
    LeavesWorld (Command.renderText World.host c input template entries bodyKey).run :=
  (attempt _ _).bind_run fun k => (templateAt k _).bind_run fun _ =>
    (require input _).bind_run fun _ => attempt _ _

theorem checkText : LeavesWorld (Command.checkText World.host c path).run :=
  (require path _).bind_run fun _ => (attempt _ _).bind_run fun _ => of_pure _

theorem contextOf :
    LeavesWorld (Command.contextOf World.host c input entries bodyKey).run :=
  (attempt _ _).bind_run fun _ => (require input _).bind_run fun _ =>
    (attempt _ _).bind_run fun _ => attempt _ _

end LeavesWorld

/-! ### Results on a file tree -/

namespace FileTree

variable {α β ε : Type} (t : FileTree)

/-- What a computation gives that starts with the tree and nothing printed. -/
def result (x : ExceptT CommandError (StateM World) α) : Except CommandError α :=
  (x.run.run ⟨t, ""⟩).1

@[simp] theorem result_attempt (cause : ε → CommandError) (r : Except ε α) :
    t.result (attempt cause r) = r.mapError cause := rfl

@[simp] theorem result_require (cause : FileError → CommandError) (path : String) :
    t.result (World.host.require cause path) = (t.read path).mapError cause := rfl

variable {t}

/-- What leaves the world alone does nothing but to have a result. -/
theorem run_eq_result {x : ExceptT CommandError (StateM World) α} (hx : LeavesWorld x.run) :
    x.run.run ⟨t, ""⟩ = (t.result x, ⟨t, ""⟩) :=
  Prod.ext rfl (hx _)

/-- What follows on a computation that leaves the world alone starts with the same tree. -/
theorem result_bind {x : ExceptT CommandError (StateM World) α} (hx : LeavesWorld x.run)
    (f : α → ExceptT CommandError (StateM World) β) :
    t.result (x >>= f) = t.result x >>= fun a => t.result (f a) := by
  rw [result, ExceptT.run_bind, StateT.run_bind, run_eq_result hx]
  cases t.result x <;> rfl

end FileTree

end DocTemplate
