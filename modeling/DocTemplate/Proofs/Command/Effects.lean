import DocTemplate.Proofs.Command.Reading
import DocTemplate.Proofs.Command.Writing

/-!
# What a run does to the files and the output

A command gets a text by reading (`Command.text`) and then prints it or writes it to a file
(`Command.deliver`). This is all that it does (`Command.run_eq_deliver`), so that printing and writing
come after the last cause for which a command can fail, but for the cause that the text is not written.

On a file tree a run is therefore seen as one of a few things (`FileTree.observe_run`). It fails on the
way to the text, with nothing printed and no file changed; it prints the text; or it writes the text to
the path for the output, even if something that is read stands at the path.
-/

namespace DocTemplate

/-! ### A text and its delivery -/

namespace Command

/-- The path that a command has for its output. -/
def outputPath? : Command → Option String
  | render _ _ _ output _ => output
  | check _ => none
  | context .. => none

/-- The command without a path for its output. -/
def withoutPath : Command → Command
  | render input template entries _ bodyKey => render input template entries none bodyKey
  | command => command

theorem outputPath?_withoutPath (command : Command) : command.withoutPath.outputPath? = none := by
  cases command <;> rfl

variable {m : Type → Type} [Monad m]

/-- The text that a command prints or writes. -/
def text (host : Host m) (c : Config) : Command → ExceptT CommandError m String
  | render input template entries _ bodyKey => renderText host c input template entries bodyKey
  | check template => checkText host c template
  | context input entries format bodyKey => do
    return format.print (← contextOf host c input entries bodyKey) ++ "\n"

/-- A path for the output has no part in the text. -/
theorem text_withoutPath (host : Host m) (c : Config) (command : Command) :
    command.withoutPath.text host c = command.text host c := by
  cases command <;> rfl

/-- Print a text, or write it to the path for the output. -/
def deliver (host : Host m) (command : Command) (text : String) : ExceptT CommandError m Unit :=
  match command.outputPath? with
  | none => host.print text
  | some path => host.store (.outputFile path) path text

/-- **A command delivers its text**, and does so last. -/
theorem run_eq_deliver [LawfulMonad m] (host : Host m) (c : Config) (command : Command) :
    command.run host c = command.text host c >>= command.deliver host := by
  cases command with
  | render input template entries output bodyKey => cases output <;> rfl
  | check template => rfl
  | context input entries format bodyKey =>
    rw [run, text, bind_assoc]
    simp only [pure_bind]
    rfl

end Command

/-- The text of the command with the configuration that is found. -/
def Arguments.text {m : Type → Type} [Monad m] (host : Host m) (env : Environment) (a : Arguments) :
    ExceptT CommandError m String := do
  a.command.text host (← Config.find host env a.config)

/-- The same settings and the command without a path for its output. -/
def Arguments.withoutPath (a : Arguments) : Arguments :=
  { a with command := a.command.withoutPath }

theorem Arguments.ofWords_eq_ok_iff {words : List String} {a : Arguments} :
    ofWords words = .ok a ↔ read words = .ok a := by
  rw [ofWords]
  cases read words <;> simp [Except.mapError]

theorem LeavesWorld.commandText (c : Config) (command : Command) :
    LeavesWorld (command.text World.host c).run := by
  cases command with
  | render input template entries output bodyKey => exact renderText c input template bodyKey entries
  | check template => exact checkText c template
  | context input entries format bodyKey =>
    exact (contextOf c input bodyKey entries).bind_run fun _ => of_pure _

theorem LeavesWorld.text (env : Environment) (a : Arguments) :
    LeavesWorld (a.text World.host env).run :=
  (find env a.config).bind_run fun c => commandText c a.command

/-! ### Deliveries on a file tree -/

namespace Outcome

/-- What is seen of a run that only prints its text, if it gets one. -/
def ofResult : Except CommandError String → Outcome
  | .ok output => done output
  | .error e => ⟨.failed e, ""⟩

@[simp] theorem ofResult_eq_done_iff {r : Except CommandError String} {output : String} :
    ofResult r = done output ↔ r = .ok output := by
  cases r <;> simp [ofResult, done]

@[simp] theorem ofResult_eq_failed_iff {r : Except CommandError String} {e : CommandError} :
    ofResult r = ⟨.failed e, ""⟩ ↔ r = .error e := by
  cases r <;> simp [ofResult, done]

end Outcome

namespace FileTree

variable {env : Environment} {a : Arguments} {path text : String}

/-- What is seen if a text is printed, or goes to a path. -/
def delivered (t : FileTree) (text : String) : Option String → Outcome × FileTree
  | none => (.done text, t)
  | some path =>
    match t.write path text with
    | .ok t' => (.done "", t')
    | .error e => (⟨.failed (.outputFile path e), ""⟩, t)

section Delivered

variable {t : FileTree}

/-- A delivery fails without effect. -/
theorem delivered_of_failed {path? : Option String} {e : CommandError}
    (h : (t.delivered text path?).1.ending = .failed e) :
    (t.delivered text path?).1.output = "" ∧ (t.delivered text path?).2 = t := by
  cases path? with
  | none => cases h
  | some path =>
    rw [delivered] at h ⊢
    cases hwrite : t.write path text with
    | ok t' => rw [hwrite] at h; cases h
    | error e => exact ⟨rfl, rfl⟩

theorem delivered_of_write {t' : FileTree} (h : t.write path text = .ok t') :
    t.delivered text (some path) = (.done "", t') := by
  rw [delivered, h]

theorem exists_write_of_delivered {output : String}
    (h : (t.delivered text (some path)).1 = .done output) : ∃ t', t.write path text = .ok t' := by
  rw [delivered] at h
  cases hwrite : t.write path text with
  | ok t' => exact ⟨t', rfl⟩
  | error e => rw [hwrite] at h; cases h

end Delivered

/-- What is seen of a run of something that may fail. -/
def seen (t : FileTree) (x : ExceptT CommandError (StateM World) Unit) : Outcome × FileTree :=
  t.observe (Ending.ofResult <$> x.run)

theorem seen_bind {α : Type} {t : FileTree} {x : ExceptT CommandError (StateM World) α}
    (hx : LeavesWorld x.run) (f : α → ExceptT CommandError (StateM World) Unit) :
    t.seen (x >>= f) =
      match t.result x with
      | .ok a => t.seen (f a)
      | .error e => (⟨.failed e, ""⟩, t) := by
  rw [seen, observe, StateT.run_map, ExceptT.run_bind, StateT.run_bind, run_eq_result hx]
  cases t.result x <;> rfl

theorem run_print (t : FileTree) (text : String) :
    (World.host.print text).run ⟨t, ""⟩ = ((), ⟨t, text⟩) := by
  change ((), (⟨t, "" ++ text⟩ : World)) = _
  rw [String.empty_append]

theorem run_write (t : FileTree) (path text : String) :
    (World.host.write path text).run ⟨t, ""⟩ =
      match t.write path text with
      | .ok t' => (.ok (), ⟨t', ""⟩)
      | .error e => (.error e, ⟨t, ""⟩) := by
  change StateT.run (match t.write path text with
    | .ok t' => do
      modify fun s => { s with files := t' }
      return .ok ()
    | .error e => return .error e : StateM World (Except FileError Unit)) ⟨t, ""⟩ = _
  cases t.write path text <;> rfl

theorem seen_store (t : FileTree) (path text : String) :
    t.seen (World.host.store (.outputFile path) path text) = t.delivered text (some path) := by
  have hstore : (World.host.store (.outputFile path) path text).run =
      Except.mapError (.outputFile path) <$> World.host.write path text := by
    rw [Host.store]
    simp [ExceptT.run_bind, attempt]
  rw [seen, observe, hstore, StateT.run_map, StateT.run_map, run_write, delivered]
  cases t.write path text <;> rfl

/-- A delivery begins with nothing printed. -/
theorem seen_deliver (t : FileTree) (command : Command) (text : String) :
    t.seen (command.deliver World.host text) = t.delivered text command.outputPath? := by
  rw [Command.deliver]
  cases command.outputPath? with
  | none =>
    have hprint : (liftM (World.host.print text) : ExceptT CommandError (StateM World) Unit).run =
        Except.ok <$> World.host.print text := rfl
    rw [seen, observe, hprint, StateT.run_map, StateT.run_map, run_print]
    rfl
  | some path => exact seen_store t path text

/-! ### Runs on a file tree -/

/-- **What is seen of a run** is that it fails on the way to its text, or what becomes of the text. -/
theorem observe_run (t : FileTree) (env : Environment) (a : Arguments) :
    t.observe (a.run World.host env) =
      match t.result (a.text World.host env) with
      | .ok text => t.delivered text a.command.outputPath?
      | .error e => (⟨.failed e, ""⟩, t) := by
  have hrun : a.run World.host env =
      Ending.ofResult <$> (a.text World.host env >>= a.command.deliver World.host).run := by
    simp only [Arguments.run, Arguments.text, Command.run_eq_deliver, bind_assoc]
    rfl
  rw [hrun, ← seen, seen_bind (LeavesWorld.text env a)]
  cases t.result (a.text World.host env) with
  | ok text => exact seen_deliver t a.command text
  | error e => rfl

/-- A path for the output has no part in the text of a run. -/
theorem result_text_withoutPath (t : FileTree) (env : Environment) (a : Arguments) :
    t.result (a.withoutPath.text World.host env) = t.result (a.text World.host env) := by
  have htext : a.withoutPath.text World.host env = a.text World.host env :=
    bind_congr fun c => a.command.text_withoutPath World.host c
  rw [htext]

theorem observe_run_withoutPath (t : FileTree) (env : Environment) (a : Arguments) :
    t.observe (a.withoutPath.run World.host env) =
      (.ofResult (t.result (a.text World.host env)), t) := by
  have hpath : a.withoutPath.command.outputPath? = none := a.command.outputPath?_withoutPath
  rw [observe_run, result_text_withoutPath, hpath]
  cases t.result (a.text World.host env) <;> rfl

theorem run_of_read_ok {words : List String} (h : Arguments.read words = .ok a) (t : FileTree)
    (env : Environment) : t.run env words = t.observe (a.run World.host env) := by
  rw [run, runWords, h]

theorem run_of_read_error {words : List String} {refusal : Refusal}
    (h : Arguments.read words = .error refusal) (t : FileTree) (env : Environment) :
    t.run env words = (⟨.refused refusal, refusal.answer⟩, t) := by
  simp only [run, runWords, h, observe, StateT.run_bind, run_print]
  rfl

/-- A run that fails prints nothing and leaves the files alone. -/
theorem observe_run_of_failed {t : FileTree} {e : CommandError}
    (h : (t.observe (a.run World.host env)).1.ending = .failed e) :
    (t.observe (a.run World.host env)).1.output = "" ∧
      (t.observe (a.run World.host env)).2 = t := by
  rw [observe_run] at h ⊢
  cases htext : t.result (a.text World.host env) with
  | error e => exact ⟨rfl, rfl⟩
  | ok text =>
    rw [htext] at h
    exact delivered_of_failed h

/-- A run without a path for its output leaves the files alone. -/
theorem observe_run_of_outputPath_none (h : a.command.outputPath? = none) (t : FileTree) :
    (t.observe (a.run World.host env)).2 = t := by
  rw [observe_run, h]
  cases t.result (a.text World.host env) <;> rfl

theorem observe_run_ne_refused (t : FileTree) (env : Environment) (a : Arguments)
    (refusal : Refusal) : (t.observe (a.run World.host env)).1.ending ≠ .refused refusal := by
  rw [observe_run]
  cases t.result (a.text World.host env) with
  | error e => exact Ending.noConfusion
  | ok text =>
    cases a.command.outputPath? with
    | none => exact Ending.noConfusion
    | some path =>
      simp only [delivered]
      cases t.write path text <;> exact Ending.noConfusion

theorem observe_run_withoutPath_eq_done_iff {t : FileTree} :
    t.observe (a.withoutPath.run World.host env) = (.done text, t) ↔
      t.result (a.text World.host env) = .ok text := by
  rw [observe_run_withoutPath, Prod.mk.injEq, Outcome.ofResult_eq_done_iff]
  exact and_iff_left rfl

section OutputPath

variable {t t' : FileTree} (hpath : a.command.outputPath? = some path)

include hpath

/-- **A run with a path for its output** is the run without the path, and then one writing. -/
theorem observe_run_of_write
    (hwithout : t.observe (a.withoutPath.run World.host env) = (.done text, t))
    (hwrite : t.write path text = .ok t') :
    t.observe (a.run World.host env) = (.done "", t') := by
  rw [observe_run, observe_run_withoutPath_eq_done_iff.mp hwithout, hpath]
  exact delivered_of_write hwrite

/-- It is done in no other way. -/
theorem exists_of_observe_run_eq_done {output : String}
    (h : (t.observe (a.run World.host env)).1 = .done output) :
    ∃ text t', t.observe (a.withoutPath.run World.host env) = (.done text, t) ∧
      t.write path text = .ok t' := by
  rw [observe_run, hpath] at h
  cases htext : t.result (a.text World.host env) with
  | error e => rw [htext] at h; cases h
  | ok text =>
    rw [htext] at h
    obtain ⟨t', hwrite⟩ := exists_write_of_delivered h
    exact ⟨text, t', observe_run_withoutPath_eq_done_iff.mpr htext, hwrite⟩

end OutputPath

/-- **A failed run has no effect, and a successful one has the effect that it is asked for.** A run
that fails prints nothing and leaves all files as they are. One without a command to run leaves all
files as they are as well, and prints nothing unless it is asked to. A run without a path for its
output leaves all files as they are. A run with such a path succeeds exactly if the same run without
the path does and what it says can be written. It then prints nothing; the text that the run without
the path prints, which leaves all files as they are, is at the path, and nothing else has changed. -/
theorem run_effects (t : FileTree) (env : Environment) (words : List String) :
    (∀ e, (t.run env words).1.ending = .failed e →
      (t.run env words).1.output = "" ∧ (t.run env words).2 = t) ∧
    (∀ refusal, (t.run env words).1.ending = .refused refusal →
      (refusal.isRequest = false → (t.run env words).1.output = "") ∧ (t.run env words).2 = t) ∧
    ∀ a, Arguments.ofWords words = .ok a →
      (a.command.outputPath? = none → (t.run env words).2 = t) ∧
      ∀ path, a.command.outputPath? = some path →
        ((∃ output, (t.run env words).1 = .done output) ↔
          ∃ text t', (t.observe (a.withoutPath.run World.host env)).1 = .done text ∧
            t.write path text = .ok t') ∧
        ∀ output, (t.run env words).1 = .done output → output = "" ∧
          ∃ text, t.observe (a.withoutPath.run World.host env) = (.done text, t) ∧
            t.Saved path text (t.run env words).2 := by
  simp only [Arguments.ofWords_eq_ok_iff]
  cases hread : Arguments.read words with
  | error refusal =>
    rw [run_of_read_error hread]
    refine ⟨nofun, fun refusal' h => ⟨fun hrequest => ?_, rfl⟩, nofun⟩
    obtain rfl := Ending.refused.inj h
    exact Refusal.answer_of_not_isRequest hrequest
  | ok a =>
    rw [run_of_read_ok hread]
    refine ⟨fun e => observe_run_of_failed,
      fun refusal h => absurd h (observe_run_ne_refused t env a refusal), ?_⟩
    rintro a' ⟨⟩
    refine ⟨fun hpath => observe_run_of_outputPath_none hpath t,
      fun path hpath => ⟨⟨?_, ?_⟩, fun output hdone => ?_⟩⟩
    · rintro ⟨output, hdone⟩
      obtain ⟨text, t', hwithout, hwrite⟩ := exists_of_observe_run_eq_done hpath hdone
      exact ⟨text, t', congrArg Prod.fst hwithout, hwrite⟩
    · rintro ⟨text, t', hprinted, hwrite⟩
      have hleaves : (t.observe (a.withoutPath.run World.host env)).2 = t :=
        observe_run_of_outputPath_none a.command.outputPath?_withoutPath t
      exact ⟨"", congrArg Prod.fst (observe_run_of_write hpath (Prod.ext hprinted hleaves) hwrite)⟩
    · obtain ⟨text, t', hwithout, hwrite⟩ := exists_of_observe_run_eq_done hpath hdone
      rw [observe_run_of_write hpath hwithout hwrite] at hdone ⊢
      exact ⟨(congrArg Outcome.output hdone).symm, text, hwithout, saved_of_write hwrite⟩

/-- The output can go to the document itself, and a document that is not there changes nothing. -/
theorem run_effects_on_document :
    let t : FileTree := ⟨[(["a.md"], .file ⟨#[72, 105]⟩)], []⟩
    let env : Environment := ⟨fun _ => none, none⟩
    let saved := t.run env ["render", "a.md", "-o", "a.md"]
    let failed := t.run env ["render", "b.md", "-o", "a.md"]
    saved.1 = .done "" ∧ t.Saved "a.md" "Hi" saved.2 ∧
      failed.1.ending = .failed (.documentFile "b.md" .notFound) ∧ failed.1.output = "" ∧
      failed.2 = t := by
  intro t env saved failed
  obtain ⟨-, -, hsaved⟩ := run_effects t env ["render", "a.md", "-o", "a.md"]
  obtain ⟨hfailed, -, -⟩ := run_effects t env ["render", "b.md", "-o", "a.md"]
  let a : Arguments := ⟨.render "a.md" none [] (some "a.md") none, false, none, false⟩
  obtain ⟨-, text, hwithout, h⟩ := ((hsaved a rfl).2 "a.md" rfl).2 "" rfl
  have houtput : (t.observe (a.withoutPath.run World.host env)).1.output = "Hi" := by
    decide +kernel
  rw [hwithout] at houtput
  obtain rfl : text = "Hi" := houtput
  exact ⟨rfl, h, rfl, hfailed _ rfl⟩

end FileTree

end DocTemplate
