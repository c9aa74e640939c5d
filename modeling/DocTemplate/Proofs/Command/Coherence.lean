import DocTemplate.Proofs.Command.Effects
import DocTemplate.Proofs.Command.Precedence

/-!
# How the commands agree

A template is compiled by the command that checks it and by the one that renders a document through
it, and the context of a document is made by the one that prints it and again by the one that renders.
**What the commands say fits together** (`FileTree.commands_agree`): to render is to check the
template, to make the context, and to render the one against the other.

The reason is one equation. On a file tree, rendering through a template at a path is what
`Command.templateAt` gives, then what `Command.contextOf` gives, each with the wording of its causes
changed (`FileTree.result_renderText`), and checking is the former alone (`FileTree.result_checkText`).
Nothing else has a part in it: the limit of a converter is the one that a check uses, and both
commands about documents make their converter of the same parts. The order counts where two causes
meet: the template is looked at before the document.
-/

namespace DocTemplate

/-! ### Causes -/

namespace CommandError

/-- The cause is that the template at a path is not read or does not compile. -/
inductive IsOfTemplate (path : String) : CommandError → Prop
  /-- It is not read. -/
  | file (error : FileError) : IsOfTemplate path (templateFile path error)
  /-- It does not compile. -/
  | source (error : TemplateError) : IsOfTemplate path (template error)

/-- The cause is that the document at a path is not read, or that it has no metadata and body or no
context. -/
inductive IsOfDocument (path : String) : CommandError → Prop
  /-- It is not read. -/
  | file (error : FileError) : IsOfDocument path (documentFile path error)
  /-- It has no metadata and body. -/
  | parts (error : DocumentError) : IsOfDocument path (document path error)
  /-- It has no context. -/
  | context (error : DocumentError) : IsOfDocument path (context error)

theorem IsOfTemplate.ne_outputFile {path : String} {e : CommandError} (h : e.IsOfTemplate path)
    (other : String) (error : FileError) : e ≠ outputFile other error := by
  cases h <;> exact CommandError.noConfusion

/-- What a cause for which a template is not used is in a check. -/
def inCheck (path : String) : CommandError → CommandError
  | template error => invalidTemplate path error
  | error => error

/-- What a cause for which a document has no context is in a conversion. -/
def inConversion (path : String) : CommandError → CommandError
  | document _ error => conversion path error
  | context error => conversion path error
  | error => error

theorem IsOfDocument.not_isOfTemplate {input path : String} {e : CommandError}
    (h : e.IsOfDocument input) : ¬(e.inConversion input).IsOfTemplate path := by
  cases h <;> nofun

theorem IsOfDocument.ne_outputFile {input : String} {e : CommandError} (h : e.IsOfDocument input)
    (other : String) (error : FileError) : e.inConversion input ≠ outputFile other error := by
  cases h <;> exact CommandError.noConfusion

end CommandError

/-! ### Outcomes -/

namespace FileTree

variable {t : FileTree} {env : Environment} {settings : Arguments} {c : Config}

/-- What is seen of a command that is run on the tree, with the settings that all commands share. -/
def outcome (t : FileTree) (env : Environment) (settings : Arguments) (command : Command) :
    Outcome :=
  (t.observe ({ settings with command := command }.run World.host env)).1

/-- With a configuration, a command without a path for its output prints its text. -/
theorem outcome_eq_ofResult
    (hc : t.result (Config.find World.host env settings.config) = .ok c) {command : Command}
    (hpath : command.outputPath? = none) :
    t.outcome env settings command = .ofResult (t.result (command.text World.host c)) := by
  have htext : t.result (Arguments.text World.host env { settings with command := command }) =
      t.result (command.text World.host c) := by
    rw [Arguments.text, result_bind (LeavesWorld.find env settings.config), hc]
    rfl
  rw [outcome, observe_run, htext, hpath]
  cases t.result (command.text World.host c) <;> rfl

end FileTree

/-! ### One equation for each command -/

variable {c : Config} {k : Converter} {entries : List String} {bodyKey : Option String}

theorem Config.limit_of_converter (hk : c.converter entries bodyKey = .ok k) :
    k.limit = c.maxNesting := by
  obtain ⟨given, -, rfl⟩ := Config.converter_eq_ok_iff.mp hk
  rfl

theorem Config.exists_converter (h : ∀ entry ∈ entries, Variables.IsEntry entry) (c : Config)
    (bodyKey : Option String) : ∃ k, c.converter entries bodyKey = .ok k := by
  cases hk : c.converter entries bodyKey with
  | ok k => exact ⟨k, rfl⟩
  | error e =>
    obtain ⟨entry, hmem, hentry⟩ := Config.exists_converter_eq_error_iff.mp ⟨e, hk⟩
    exact absurd (h entry hmem) hentry

namespace FileTree

variable {t : FileTree}

theorem result_templateAt (t : FileTree) (k : Converter) (path : String) :
    t.result (Command.templateAt World.host k (some path)) =
      ((t.read path).mapError (.templateFile path) >>= fun source =>
        (Template.compile source k.limit).mapError .template) :=
  result_bind (LeavesWorld.require path _) _

theorem result_templateAt_eq_ok_iff {path : String} {template : Template} :
    t.result (Command.templateAt World.host k (some path)) = .ok template ↔
      ∃ source, t.read path = .ok source ∧ Template.compile source k.limit = .ok template := by
  rw [result_templateAt]
  cases t.read path with
  | error e => simp [Except.mapError, bind, Except.bind]
  | ok source =>
    cases hcompile : Template.compile source k.limit <;>
      simp [hcompile, Except.mapError, bind, Except.bind]

/-- **To check a template is to take it** as rendering takes it, and to report. -/
theorem result_checkText (t : FileTree) (hlimit : k.limit = c.maxNesting) (path : String) :
    t.result (Command.checkText World.host c path) = do
      let template ← (t.result (Command.templateAt World.host k (some path))).mapError (.inCheck path)
      return Command.report path template := by
  rw [Command.checkText, result_bind (LeavesWorld.require path _), result_templateAt, ← hlimit]
  simp only [result_bind (LeavesWorld.attempt _ _), result_require, result_attempt, mapError_bind,
    mapError_mapError, bind_assoc]
  rfl

theorem result_contextOf (t : FileTree) (hk : c.converter entries bodyKey = .ok k)
    (input : String) :
    t.result (Command.contextOf World.host c input entries bodyKey) =
      ((t.read input).mapError (.documentFile input) >>= fun source =>
        (k.parse source).mapError (.document input) >>= fun d =>
          (k.context d).mapError .context) := by
  rw [Command.contextOf, hk, result_bind (LeavesWorld.attempt _ _)]
  change t.result (World.host.require _ input >>= _) = _
  rw [result_bind (LeavesWorld.require input _)]
  refine bind_congr fun source => ?_
  exact result_bind (LeavesWorld.attempt _ _) _

/-- **To render a document is to take the template, to make the context, and to render the one
against the other.** The template is taken first. -/
theorem result_renderText (t : FileTree) (hk : c.converter entries bodyKey = .ok k)
    (input path : String) :
    t.result (Command.renderText World.host c input (some path) entries bodyKey) = do
      let template ← t.result (Command.templateAt World.host k (some path))
      let context ← (t.result (Command.contextOf World.host c input entries bodyKey)).mapError
        (.inConversion input)
      return (template.render context).1 := by
  rw [Command.renderText, hk, result_bind (LeavesWorld.attempt _ _)]
  change t.result (Command.templateAt World.host k (some path) >>= _) = _
  rw [result_bind (LeavesWorld.templateAt k (some path))]
  refine bind_congr fun template => ?_
  -- what is left are the same steps on the document, with causes that are renamed along the way
  rw [result_bind (LeavesWorld.require input _), result_contextOf t hk]
  simp only [result_require, result_attempt, Converter.convert, mapError_bind, mapError_mapError,
    bind_assoc]
  rfl

/-! ### Which causes there are -/

theorem failsWith_templateAt (t : FileTree) (k : Converter) (path : String) :
    FailsWith (CommandError.IsOfTemplate path)
      (t.result (Command.templateAt World.host k (some path))) := by
  rw [result_templateAt]
  exact (FailsWith.mapError .file _).bind fun _ => .mapError .source _

/-- With a converter, a context fails on nothing but the document. -/
theorem failsWith_contextOf (t : FileTree) (hk : c.converter entries bodyKey = .ok k)
    (input : String) :
    FailsWith (CommandError.IsOfDocument input)
      (t.result (Command.contextOf World.host c input entries bodyKey)) := by
  rw [result_contextOf t hk]
  exact (FailsWith.mapError .file _).bind fun _ => (FailsWith.mapError .parts _).bind fun _ =>
    .mapError .context _

/-! ### The agreement -/

variable {env : Environment} {settings : Arguments} {path input : String}
  {format : ContextFormat} {e : CommandError}

/-- A path for the output has no part in causes other than that the output is not written. -/
theorem outcome_withoutPath_eq_failed_iff (he : ∀ path e', e ≠ .outputFile path e')
    (command : Command) :
    t.outcome env settings command = ⟨.failed e, ""⟩ ↔
      t.outcome env settings command.withoutPath = ⟨.failed e, ""⟩ := by
  have hwithout := observe_run_withoutPath t env { settings with command := command }
  rw [Arguments.withoutPath] at hwithout
  rw [outcome, outcome, observe_run, hwithout]
  cases t.result (Arguments.text World.host env { settings with command := command }) with
  | error e' => rfl
  | ok text =>
    cases command.outputPath? with
    | none => rfl
    | some path =>
      simp only [delivered]
      cases t.write path text <;> simp [Outcome.done, Ne.symm (he path _)]

section Outcomes

variable (hc : t.result (Config.find World.host env settings.config) = .ok c)

include hc

/-- A check ends as the template is taken or not. -/
theorem outcome_check (hk : c.converter entries bodyKey = .ok k) (path : String) :
    t.outcome env settings (.check path) =
      .ofResult (do
        let template ← (t.result (Command.templateAt World.host k (some path))).mapError
          (.inCheck path)
        return Command.report path template) := by
  rw [outcome_eq_ofResult hc rfl, Command.text, result_checkText t (Config.limit_of_converter hk)]

theorem outcome_context (input : String) (format : ContextFormat) :
    t.outcome env settings (.context input entries format bodyKey) =
      .ofResult ((t.result (Command.contextOf World.host c input entries bodyKey)).map
        fun context => format.print context ++ "\n") := by
  rw [outcome_eq_ofResult hc rfl, Command.text,
    result_bind (LeavesWorld.contextOf c input bodyKey entries)]
  rfl

theorem outcome_context_eq_failed_iff :
    t.outcome env settings (.context input entries format bodyKey) = ⟨.failed e, ""⟩ ↔
      t.result (Command.contextOf World.host c input entries bodyKey) = .error e := by
  rw [outcome_context hc, Outcome.ofResult_eq_failed_iff]
  cases t.result (Command.contextOf World.host c input entries bodyKey) <;> simp [Except.map]

theorem outcome_render (hk : c.converter entries bodyKey = .ok k) (input path : String) :
    t.outcome env settings (.render input (some path) entries none bodyKey) =
      .ofResult (do
        let template ← t.result (Command.templateAt World.host k (some path))
        let context ← (t.result (Command.contextOf World.host c input entries bodyKey)).mapError
          (.inConversion input)
        return (template.render context).1) := by
  rw [outcome_eq_ofResult hc rfl, Command.text, result_renderText t hk]

variable (hk : c.converter entries bodyKey = .ok k)

include hk

theorem exists_outcome_check_eq_failed_iff :
    (∃ e, t.outcome env settings (.check path) = ⟨.failed e, ""⟩) ↔
      ∃ e, t.result (Command.templateAt World.host k (some path)) = .error e := by
  simp only [outcome_check hc hk, Outcome.ofResult_eq_failed_iff]
  cases t.result (Command.templateAt World.host k (some path)) <;>
    simp [Except.mapError, bind, Except.bind, pure, Except.pure]

theorem outcome_check_eq_done_iff {report : String} :
    t.outcome env settings (.check path) = .done report ↔
      ∃ template, t.result (Command.templateAt World.host k (some path)) = .ok template ∧
        report = Command.report path template := by
  rw [outcome_check hc hk, Outcome.ofResult_eq_done_iff]
  cases t.result (Command.templateAt World.host k (some path)) <;>
    simp [Except.mapError, bind, Except.bind, pure, Except.pure, eq_comm]

/-- A document is not rendered exactly if the template is not taken, or else there is no context. A
path for the output adds only that the output may not be written. -/
theorem outcome_render_eq_failed_iff (he : ∀ path e', e ≠ .outputFile path e')
    (output : Option String) :
    t.outcome env settings (.render input (some path) entries output bodyKey) = ⟨.failed e, ""⟩ ↔
      t.result (Command.templateAt World.host k (some path)) = .error e ∨
        (∃ template, t.result (Command.templateAt World.host k (some path)) = .ok template) ∧
          ∃ e', t.result (Command.contextOf World.host c input entries bodyKey) = .error e' ∧
            e = e'.inConversion input := by
  rw [outcome_withoutPath_eq_failed_iff he, Command.withoutPath, outcome_render hc hk,
    Outcome.ofResult_eq_failed_iff]
  cases t.result (Command.templateAt World.host k (some path)) with
  | error e' => simp [bind, Except.bind]
  | ok template =>
    cases t.result (Command.contextOf World.host c input entries bodyKey) <;>
      simp [Except.mapError, bind, Except.bind, pure, Except.pure, eq_comm]

theorem outcome_render_eq_done {template : Template} {context : Context}
    (htemplate : t.result (Command.templateAt World.host k (some path)) = .ok template)
    (hcontext : t.result (Command.contextOf World.host c input entries bodyKey) = .ok context) :
    t.outcome env settings (.render input (some path) entries none bodyKey) =
      .done (template.render context).1 := by
  rw [outcome_render hc hk, htemplate, hcontext]
  rfl

end Outcomes

/-- **The commands agree**, on every file tree, with every configuration that is found and with texts
that all give variables.

* Rendering a document through the template at a path fails on the template exactly if a check of it
  fails, whatever is at the path of the document and wherever the output goes.
* A context that is made of a document is printed, and rendering through a template that passes its
  check prints what the compiled template makes of this context.
* If no context is made of it, that is for the document, and rendering it fails through any template:
  on the template or, for the same cause, on the document. -/
theorem commands_agree (hc : t.result (Config.find World.host env settings.config) = .ok c)
    (hentries : ∀ entry ∈ entries, Variables.IsEntry entry) (bodyKey : Option String) :
    (∀ path input output,
      (∃ e, e.IsOfTemplate path ∧
        t.outcome env settings (.render input (some path) entries output bodyKey) = ⟨.failed e, ""⟩) ↔
      ∃ e, t.outcome env settings (.check path) = ⟨.failed e, ""⟩) ∧
    (∀ input context,
      t.result (Command.contextOf World.host c input entries bodyKey) = .ok context →
      (∀ format, t.outcome env settings (.context input entries format bodyKey) =
        .done (format.print context ++ "\n")) ∧
      ∀ path report, t.outcome env settings (.check path) = .done report →
        ∃ source template, t.read path = .ok source ∧
          Template.compile source c.maxNesting = .ok template ∧
          report = Command.report path template ∧
          t.outcome env settings (.render input (some path) entries none bodyKey) =
            .done (template.render context).1) ∧
    ∀ input format e,
      t.outcome env settings (.context input entries format bodyKey) = ⟨.failed e, ""⟩ →
      e.IsOfDocument input ∧ ∀ path output, ∃ e',
        (e'.IsOfTemplate path ∨ e' = e.inConversion input) ∧
        t.outcome env settings (.render input (some path) entries output bodyKey) =
          ⟨.failed e', ""⟩ := by
  obtain ⟨k, hk⟩ := Config.exists_converter hentries c bodyKey
  have hlimit : k.limit = c.maxNesting := Config.limit_of_converter hk
  refine ⟨fun path input output => ?_, fun input context hcontext => ⟨fun format => ?_,
    fun path report hreport => ?_⟩, fun input format e he => ?_⟩
  · rw [exists_outcome_check_eq_failed_iff hc hk]
    constructor
    · rintro ⟨e, hof, he⟩
      rcases (outcome_render_eq_failed_iff hc hk hof.ne_outputFile _).mp he with
        he | ⟨-, e', hcontext, rfl⟩
      · exact ⟨e, he⟩
      · exact absurd hof (failsWith_contextOf t hk input e' hcontext).not_isOfTemplate
    · rintro ⟨e, he⟩
      have hof : e.IsOfTemplate path := failsWith_templateAt t k path e he
      exact ⟨e, hof,
        (outcome_render_eq_failed_iff hc hk hof.ne_outputFile _).mpr (Or.inl he)⟩
  · rw [outcome_context hc, hcontext]
    rfl
  · obtain ⟨template, htemplate, rfl⟩ := (outcome_check_eq_done_iff hc hk).mp hreport
    obtain ⟨source, hread, hcompile⟩ := result_templateAt_eq_ok_iff.mp htemplate
    exact ⟨source, template, hread, hlimit ▸ hcompile, rfl,
      outcome_render_eq_done hc hk htemplate hcontext⟩
  · have hcontext := (outcome_context_eq_failed_iff hc).mp he
    have hdocument : e.IsOfDocument input := failsWith_contextOf t hk input e hcontext
    refine ⟨hdocument, fun path output => ?_⟩
    cases htemplate : t.result (Command.templateAt World.host k (some path)) with
    | error e' =>
      have hof : e'.IsOfTemplate path := failsWith_templateAt t k path e' htemplate
      exact ⟨e', Or.inl hof,
        (outcome_render_eq_failed_iff hc hk hof.ne_outputFile _).mpr (Or.inl htemplate)⟩
    | ok template =>
      exact ⟨_, Or.inr rfl, (outcome_render_eq_failed_iff hc hk hdocument.ne_outputFile _).mpr
        (Or.inr ⟨⟨template, htemplate⟩, e, hcontext, rfl⟩)⟩

/-- A template with a variable and the body. One document is there and another is not, and neither is
another template, which is looked at before the document. -/
theorem commands_agree_on_page :
    let page : List UInt8 := [36, 120, 36, 45, 36, 98, 111, 100, 121, 36]
    let t : FileTree := ⟨[(["a.md"], .file ⟨#[72, 105]⟩), (["page"], .file ⟨page.toArray⟩)], []⟩
    let env : Environment := ⟨fun _ => none, none⟩
    let settings : Arguments := ⟨.check "page", false, none, false⟩
    let run := t.outcome env settings
    t.result (Config.find World.host env settings.config) = .ok .standard ∧
      (∀ entry ∈ ["x=1"], Variables.IsEntry entry) ∧
      run (.render "a.md" (some "page") ["x=1"] none none) = .done "1-Hi" ∧
      (∃ e, e.IsOfTemplate "other" ∧
        run (.render "b.md" (some "other") ["x=1"] none none) = ⟨.failed e, ""⟩) ∧
      ∃ e, run (.render "b.md" (some "page") ["x=1"] none none) = ⟨.failed e, ""⟩ := by
  intro page t env settings run
  have hc : t.result (Config.find World.host env settings.config) = .ok .standard := by
    with_unfolding_all rfl
  have hentries : ∀ entry ∈ ["x=1"], Variables.IsEntry entry :=
    List.forall_mem_singleton.mpr ⟨by decide, by decide⟩
  obtain ⟨hcheck, hcontext, hfailed⟩ := commands_agree hc hentries none
  refine ⟨hc, hentries, ?_, (hcheck "other" "b.md" none).mpr ⟨_, rfl⟩, ?_⟩
  · obtain ⟨k, hk⟩ := Config.exists_converter hentries .standard none
    have hread : t.read "page" = .ok "$x$-$body$" := by decide +kernel
    have hcompile : Template.compile "$x$-$body$" Config.standard.maxNesting =
        .ok ⟨[.interpolation (.key "x"), .literal "-", .interpolation (.key "body")]⟩ := by
      with_unfolding_all rfl
    have htemplate := result_templateAt_eq_ok_iff.mpr
      ⟨_, hread, (Config.limit_of_converter hk).symm ▸ hcompile⟩
    obtain ⟨-, hrendered⟩ := hcontext "a.md" ⟨⟨[("x", .scalar "1"), ("body", .scalar "Hi")]⟩⟩
      (by with_unfolding_all rfl)
    obtain ⟨source, template, hread', hcompile', -, hdone⟩ := hrendered "page" _
      ((outcome_check_eq_done_iff hc hk).mpr ⟨_, htemplate, rfl⟩)
    cases hread.symm.trans hread'
    cases hcompile.symm.trans hcompile'
    exact hdone.trans (congrArg Outcome.done (by decide +kernel))
  · obtain ⟨-, hrendered⟩ := hfailed "b.md" .json _ rfl
    obtain ⟨e, -, he⟩ := hrendered "page" none
    exact ⟨e, he⟩

end FileTree

end DocTemplate
