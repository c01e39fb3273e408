import LintFront.Proofs.CommandLine.Threshold
import LintFront.Proofs.Engine.Loading
import LintFront.Proofs.Run.Insertion
/-!
# What entries that were not asked for do to a command

A command makes the engine of one name, and for this all installed entries are loaded. What is
reported on the way stands in the journal before anything is linted, and no stage looks back at it.
So what a command comes to is settled by the engine that was made, or by the reason why there is
none, and the reports are only put before.

It follows that entries of other names can be taken out of an installation and nothing is missing
but the reports on them. This holds as long as they can be loaded or fail in a way that is skipped.
An entry that fails in any other way ends the command, whatever engine was asked for.

## Main statements

`Stage.runOn_lint`: what a command comes to hangs on the engine alone.
`Command.undisturbed_without`: which entries can be taken out without disturbing a command.
-/

namespace LintFront

/-- The journal with events before its own. -/
def Journal.preceded (journal : Journal) (before : List Event) : Journal :=
  { journal with events := before ++ journal.events }

/-- Messages that come before leave the calls and the findings as they are. -/
theorem Journal.preceded_of_isQuiet (journal : Journal) {before : List Event}
    (h : ∀ event ∈ before, event.IsQuiet) :
    (journal.preceded before).calls = journal.calls ∧
      (journal.preceded before).findings = journal.findings := by
  obtain ⟨hcalls, hfindings⟩ := Event.filterMap_of_isQuiet h
  simp only [calls, findings, preceded, List.filterMap_append, hcalls, hfindings, List.nil_append,
    and_self]

namespace Stage

variable {α β : Type}

/-! ## 1. No stage looks back -/

/-- The stage keeps the events that are in the journal already, and does not look at them. -/
def Oblivious (stage : Stage α) : Prop :=
  ∀ journal before, stage.runOn (Journal.preceded journal before) =
    ((stage.runOn journal).1, (stage.runOn journal).2.preceded before)

namespace Oblivious

theorem bind {stage : Stage α} {next : α → Stage β} (hstage : Oblivious stage)
    (hnext : ∀ a, Oblivious (next a)) : Oblivious (stage >>= next) := by
  intro journal before
  rw [runOn_bind, runOn_bind, hstage]
  rcases stage.runOn journal with ⟨ending | a, later⟩
  · rfl
  · exact hnext a later before

theorem record (event : Event) : Oblivious (Stage.record event) := by
  intro journal before
  rw [runOn_record, runOn_record]
  simp only [Journal.preceded, List.append_assoc]

theorem adapt (linter : Linter) (disk : Disk) (args : List String) :
    Oblivious (ExceptT.adapt endingOf (linter.run disk args)) := by
  intro journal before
  have htally : (journal.preceded before).tally = journal.tally := rfl
  have hextended : ∀ events, (journal.preceded before).extended events =
      (journal.extended events).preceded before := by
    intro events
    simp only [Journal.extended, Journal.preceded, List.append_assoc]
  -- The trace of the run hangs on the number of units, and this is the same in both journals.
  rw [runOn_adapt, runOn_adapt, Linter.runOn_run, Linter.runOn_run, htally, hextended]
  rcases linter.reporter.trace journal.tally.units (linter.script disk args) with
    ⟨events, fault | ⟨⟩⟩ <;> rfl

theorem conclude (settings : Settings) : Oblivious (Stage.conclude settings) := by
  intro journal before
  rw [runOn_conclude, runOn_conclude]
  unfold concluded Journal.preceded
  dsimp only
  split
  · rfl
  · simp only [List.append_assoc]

end Oblivious

/-! ## 2. What a command comes to -/

/-- What is left of a command when its engine was made. -/
def linting (host : Host) (invocation : Invocation) (settings : Settings) (engine : Engine) :
    Stage Nat := do
  record (.noted ("analyzer=" ++ engine.name ++ " min_confidence=" ++ settings.minConfidence.text))
  ExceptT.adapt endingOf ((linter host settings engine).run host.disk invocation.targets)
  conclude settings

theorem oblivious_linting (host : Host) (invocation : Invocation) (settings : Settings)
    (engine : Engine) : Oblivious (linting host invocation settings engine) :=
  (Oblivious.record _).bind fun _ => (Oblivious.adapt _ _ _).bind fun _ => .conclude settings

/-- How a command ends, and what is in its journal from then on, once it is known what the making of
the engine came to. -/
def sequel (host : Host) (invocation : Invocation) (settings : Settings) :
    Except Registry.CreateError Engine → Except Ending Nat × Journal
  | .error error => (.error (endingOfCreation error), {})
  | .ok engine => (linting host invocation settings engine).runOn {}

/-- The reports come first, and all else hangs on what the making of the engine came to. -/
theorem runOn_lint {host : Host} {invocation : Invocation} {loaded : Loaded}
    (loading : Loaded.load host.disk host.disk.cwd invocation.config = .ok loaded)
    {skipped : List Registry.Skipped} {made : Except Registry.CreateError Engine}
    (making : creation host (invocation.overrides.apply loaded.settings).analyzer =
      (skipped, made)) :
    (lint host invocation).runOn {} =
      ((sequel host invocation (invocation.overrides.apply loaded.settings) made).1,
        (sequel host invocation (invocation.overrides.apply loaded.settings) made).2.preceded
          (loaded.applied.map sourced ++ skipped.map skipping)) := by
  rw [lint, runOn_bind, runOn_settings, loading]
  dsimp only
  rw [runOn_bind, runOn_engine, making]
  have hopened : Journal.mk {} ([] ++ loaded.applied.map sourced ++ skipped.map skipping) =
      Journal.preceded {} (loaded.applied.map sourced ++ skipped.map skipping) := by
    rw [Journal.preceded, List.nil_append, List.append_nil]
  dsimp only
  rw [hopened]
  cases made with
  | error error => rfl
  | ok engine => exact oblivious_linting host invocation _ engine {} _

end Stage

/-- The host with something else installed. -/
def Host.withInstalled (host : Host) (entries : List EntryPoint) : Host :=
  { host with installation := .listed entries }

namespace Command

/-! ## 3. What a command writes -/

/-- The exit status that an ending means, if it means one. -/
def statusOf : Except Ending Nat → Except CommandFault Nat
  | .ok status => .ok status
  | .error (.usage _) => .ok usageStatus
  | .error (.fault fault) => .error fault

/-- What is written last, after all that the journal holds. -/
def farewell (console : Console) : Except Ending Nat → Output
  | .error (.usage error) => refusal console error
  | _ => {}

/-- The console of a command. -/
def consoleOf (host : Host) (invocation : Invocation) : Console :=
  Console.ofSwitches invocation.emoji invocation.debug invocation.noColor host.tty

theorem perform_eq (host : Host) (invocation : Invocation) :
    (perform host invocation).status = statusOf ((Stage.lint host invocation).runOn {}).1 ∧
    (perform host invocation).output.err =
      ((consoleOf host invocation).transcript (perform host invocation).journal.events).err ++
        (farewell (consoleOf host invocation) ((Stage.lint host invocation).runOn {}).1).err := by
  unfold perform Stage.runOn
  rcases StateT.run (ExceptT.run (Stage.lint host invocation)) {} with
    ⟨(error | fault) | status, journal⟩
  · exact ⟨rfl, rfl⟩
  · exact ⟨rfl, String.append_empty.symm⟩
  · exact ⟨rfl, String.append_empty.symm⟩

/-- The command line gets to the making of an engine, and asks for the one of this name. -/
structure Selects (host : Host) (args : List String) (invocation : Invocation) (name : String) :
    Prop where
  asked : ∃ arguments, Arguments.read args = .ok arguments ∧ arguments.has .help = false ∧
    Invocation.ofArguments host.disk host.bound arguments = .ok invocation
  chosen : ∃ loaded, Loaded.load host.disk host.disk.cwd invocation.config = .ok loaded ∧
    (invocation.overrides.apply loaded.settings).analyzer = name

/-- What is written of entries that are skipped. -/
def warnings (console : Console) (skipped : List Registry.Skipped) : String :=
  (console.transcript (skipped.map Stage.skipping)).err

/-- The second outcome is the first one but for what is written of skipped entries, of which some
with other names are no longer reported. -/
structure Undisturbed (console : Console) (name : String)
    (skipped skipped' : List Registry.Skipped) (first second : Outcome) : Prop where
  fewer : Without (fun entry => entry.1 ≠ name) skipped skipped'
  status : second.status = first.status
  out : second.output.out = first.output.out
  calls : second.journal.calls = first.journal.calls
  err : ∃ before after, first.output.err = before ++ warnings console skipped ++ after ∧
    second.output.err = before ++ warnings console skipped' ++ after

section

variable {host : Host} {args : List String} {invocation : Invocation} {name : String}
  {entries entries' : List EntryPoint}

theorem Selects.run_eq (h : Selects host args invocation name) (entries : List EntryPoint) :
    run (host.withInstalled entries) args = perform (host.withInstalled entries) invocation := by
  obtain ⟨arguments, hread, hhelp, hinvocation⟩ := h.asked
  have hchecked : Invocation.ofArguments (host.withInstalled entries).disk
      (host.withInstalled entries).bound arguments =
      .ok invocation := hinvocation
  rw [run, hread]
  dsimp only
  rw [hhelp, hchecked]
  rfl

/-- All that a command comes to when it gets to the making of an engine: the reports on the way, and
then what the engine alone decides. -/
theorem Selects.exists_sequel (h : Selects host args invocation name) :
    ∃ (opening : List Event) (settings : Settings), settings.analyzer = name ∧
      (∀ event ∈ opening, event.IsQuiet) ∧
      ∀ entries skipped made, Stage.creation (host.withInstalled entries) name = (skipped, made) →
        (Stage.lint (host.withInstalled entries) invocation).runOn {} =
          ((Stage.sequel host invocation settings made).1,
            (Stage.sequel host invocation settings made).2.preceded
              (opening ++ skipped.map Stage.skipping)) := by
  obtain ⟨loaded, hload, rfl⟩ := h.chosen
  refine ⟨loaded.applied.map Stage.sourced, _, rfl, ?_, ?_⟩
  · intro event hevent
    obtain ⟨source, -, rfl⟩ := List.mem_map.1 hevent
    exact ⟨rfl, rfl⟩
  · intro entries skipped made hmaking
    have hload' : Loaded.load (host.withInstalled entries).disk
        (host.withInstalled entries).disk.cwd invocation.config = .ok loaded := hload
    exact Stage.runOn_lint hload' hmaking

/-- The outcome is that of `rest`, which is what comes after the making of the engine, with the
reports `opening` and those of the skipped entries written before it. -/
structure ComesTo (host : Host) (invocation : Invocation) (opening : List Event)
    (skipped : List Registry.Skipped) (rest : Except Ending Nat × Journal) (outcome : Outcome) :
    Prop where
  status : outcome.status = statusOf rest.1
  out : outcome.output.out =
    String.join (rest.2.findings.map fun f => host.console.echoed f.render)
  calls : outcome.journal.calls = rest.2.calls
  err : outcome.output.err = ((consoleOf host invocation).transcript opening).err ++
    warnings (consoleOf host invocation) skipped ++
      (((consoleOf host invocation).transcript rest.2.events).err ++
        (farewell (consoleOf host invocation) rest.1).err)

/-- What a command comes to hangs on what is installed only through the making of the engine. -/
theorem Selects.exists_outcome (h : Selects host args invocation name) :
    ∃ (opening : List Event) (settings : Settings), ∀ entries skipped made,
      Stage.creation (host.withInstalled entries) name = (skipped, made) →
        ComesTo host invocation opening skipped (Stage.sequel host invocation settings made)
          (run (host.withInstalled entries) args) := by
  obtain ⟨opening, settings, -, hquiet, hlint⟩ := h.exists_sequel
  refine ⟨opening, settings, fun entries skipped made hmaking => ?_⟩
  obtain ⟨hstatus, herr⟩ := perform_eq (host.withInstalled entries) invocation
  have hjournal := journal_perform (host.withInstalled entries) invocation
  rw [hlint _ _ _ hmaking] at hstatus herr hjournal
  have hreports : ∀ event ∈ opening ++ skipped.map Stage.skipping, event.IsQuiet := by
    intro event hevent
    rcases List.mem_append.1 hevent with hopening | hskipped
    · exact hquiet event hopening
    · obtain ⟨entry, -, rfl⟩ := List.mem_map.1 hskipped
      exact ⟨rfl, rfl⟩
  -- The reports are written to the error stream, and are neither calls nor findings.
  obtain ⟨hcalls, hfindings⟩ := Journal.preceded_of_isQuiet
    (Stage.sequel host invocation settings made).2 hreports
  rw [h.run_eq]
  constructor
  case status => exact hstatus
  case out =>
    rw [out_perform, hjournal, hfindings]
    rfl
  case calls => rw [hjournal, hcalls]
  case err =>
    rw [herr, hjournal]
    simp only [Journal.preceded, Console.transcript_append, Output.append_err, String.append_assoc,
      warnings]
    rfl

/-- Where the making of the engine comes to the same, nothing is different but the reports. -/
theorem Selects.undisturbed (h : Selects host args invocation name)
    {skipped skipped' : List Registry.Skipped} {made : Except Registry.CreateError Engine}
    (hfewer : Without (fun entry => entry.1 ≠ name) skipped skipped')
    (hmaking : Stage.creation (host.withInstalled entries) name = (skipped, made))
    (hmaking' : Stage.creation (host.withInstalled entries') name = (skipped', made)) :
    Undisturbed (consoleOf host invocation) name skipped skipped'
      (run (host.withInstalled entries) args) (run (host.withInstalled entries') args) := by
  obtain ⟨opening, settings, houtcome⟩ := h.exists_outcome
  have hfirst := houtcome _ _ _ hmaking
  have hsecond := houtcome _ _ _ hmaking'
  exact {
    fewer := hfewer
    status := hsecond.status.trans hfirst.status.symm
    out := hsecond.out.trans hfirst.out.symm
    calls := hsecond.calls.trans hfirst.calls.symm
    err := ⟨_, _, hfirst.err, hsecond.err⟩ }

/-! ## 4. Which entries can be taken out -/

/-- The entries of a list that are reported as skipped: those that fail, up to one that ends the
loading. -/
def reported (entries : List EntryPoint) : List Registry.Skipped :=
  ((Registry.installed (.listed entries)).takeWhile EntryPoint.isTolerable).filterMap
    EntryPoint.skipped?

theorem creation_withInstalled (host : Host) (entries : List EntryPoint) (name : String) :
    Stage.creation (host.withInstalled entries) name = (reported entries,
      (Registry.createAvailable (Registry.builtIn host.parse) (.listed entries) name).2) :=
  Prod.ext (Registry.skipped_plugins (.listed entries)) rfl

/-- If it is not for the loading that there is no engine, no plugin ends the command. -/
theorem statusOf_sequel_ne_plugin (host : Host) (invocation : Invocation) (settings : Settings)
    {made : Except Registry.CreateError Engine} (h : ∀ failure, made ≠ .error (.loading failure))
    (failure : LoadFailure) :
    statusOf (Stage.sequel host invocation settings made).1 ≠ .error (.plugin failure) := by
  cases made with
  | error error =>
    cases error with
    | unknown name available => nofun
    | loading cause => exact absurd rfl (h cause)
    | making cause => nofun
  | ok engine =>
    rw [Stage.sequel, Stage.linting, Stage.runOn_bind, Stage.runOn_record]
    dsimp only
    rw [Stage.runOn_bind, Stage.runOn_adapt]
    rcases ((Stage.linter host settings engine).run host.disk invocation.targets).runOn _ with
      ⟨fault | ⟨⟩, later⟩
    · cases fault <;> nofun
    · dsimp only
      rw [Stage.runOn_conclude]
      nofun

/-- Entries of other names that are not reported once they are taken out. -/
theorem reported_without
    (h : Without (fun e => e.name ≠ name ∧ e.IsHarmless) entries entries') :
    Without (fun entry => entry.1 ≠ name) (reported entries) (reported entries') := by
  have hinstalled : Without (fun e => e.name ≠ name ∧ e.isTolerable = true)
      (Registry.installed (.listed entries)) (Registry.installed (.listed entries')) :=
    Registry.installed_without h
  refine (hinstalled.takeWhile fun e he => he.2).filterMap ?_
  rintro e ⟨_, failure⟩ hskipped ⟨hname, -⟩
  unfold EntryPoint.skipped? at hskipped
  split at hskipped
  · cases hskipped
  · obtain ⟨rfl, -⟩ := Prod.mk.inj (Option.some.inj hskipped)
    exact hname

/-- The status of a command hangs on what the making of the engine came to. -/
theorem Selects.exists_status_eq (h : Selects host args invocation name)
    (entries : List EntryPoint) :
    ∃ settings, (run (host.withInstalled entries) args).status =
      statusOf (Stage.sequel host invocation settings (Registry.createAvailable
        (Registry.builtIn host.parse) (.listed entries) name).2).1 := by
  obtain ⟨opening, settings, -, -, hlint⟩ := h.exists_sequel
  refine ⟨settings, ?_⟩
  rw [h.run_eq, (perform_eq _ _).1, hlint _ _ _ (creation_withInstalled host entries name)]

/-- An entry that is not harmless ends the command without a status. -/
theorem Selects.exists_status_eq_plugin (h : Selects host args invocation name)
    (hescape : ¬∀ e ∈ entries, e.IsHarmless) :
    ∃ failure, (run (host.withInstalled entries) args).status = .error (.plugin failure) := by
  have hentry : ∃ entry ∈ Registry.installed (.listed entries), entry.isTolerable = false := by
    rw [← Registry.forall_mem_installed_iff] at hescape
    simpa using hescape
  obtain ⟨failure, hfailure⟩ :=
    Registry.exists_loading_of_escape (Registry.builtIn host.parse) hentry name
  obtain ⟨settings, hstatus⟩ := h.exists_status_eq entries
  rw [hfailure] at hstatus
  exact ⟨failure, hstatus⟩

/-- Taking entries of other names out of an installation does not disturb a command whose engine is
available, as long as they are harmless: its status, what it prints and what it gives to the engine
are the same, and on the error stream nothing is missing but the reports on them. An entry that is
not harmless ends the command without a status; so if only harmless entries are left, taking the
others out does not disturb the command only if they were harmless too. -/
theorem undisturbed_without (hselects : Selects host args invocation name)
    (havailable : Registry.IsAvailable (Registry.builtIn host.parse) (.listed entries) name) :
    (Without (fun e => e.name ≠ name ∧ e.IsHarmless) entries entries' →
      Undisturbed (consoleOf host invocation) name (reported entries) (reported entries')
        (run (host.withInstalled entries) args) (run (host.withInstalled entries') args)) ∧
    ((¬∀ e ∈ entries, e.IsHarmless) →
      ∃ failure, (run (host.withInstalled entries) args).status = .error (.plugin failure)) ∧
    (Without (fun e => e.name ≠ name) entries entries' → (∀ e ∈ entries', e.IsHarmless) →
      (Undisturbed (consoleOf host invocation) name (reported entries) (reported entries')
        (run (host.withInstalled entries) args) (run (host.withInstalled entries') args) ↔
      ∀ e ∈ entries, e.IsHarmless)) := by
  have hharmless : Without (fun e => e.name ≠ name ∧ e.IsHarmless) entries entries' →
      Undisturbed (consoleOf host invocation) name (reported entries) (reported entries')
        (run (host.withInstalled entries) args) (run (host.withInstalled entries') args) := by
    intro hwithout
    have hmade := Registry.snd_createAvailable_without havailable hwithout
    apply hselects.undisturbed (reported_without hwithout)
      (creation_withInstalled host entries name)
    rw [hmade]
    exact creation_withInstalled host entries' name
  refine ⟨hharmless, hselects.exists_status_eq_plugin, fun hwithout hleft => ⟨?_, fun hall => ?_⟩⟩
  · intro hundisturbed
    by_contra hescape
    -- The command with all entries would be ended by a plugin, and what is left ends none.
    obtain ⟨failure, hstatus⟩ := hselects.exists_status_eq_plugin hescape
    obtain ⟨settings, hstatus'⟩ := hselects.exists_status_eq entries'
    have hmade := Registry.ne_loading_of_isTolerable (Registry.builtIn host.parse)
      (Registry.forall_mem_installed_iff.2 hleft) name
    refine statusOf_sequel_ne_plugin host invocation settings hmade failure ?_
    rw [← hstatus', hundisturbed.status, hstatus]
  · exact hharmless (hwithout.and_of_forall hall)

end

/-- An entry that cannot be loaded, and the way in which it fails. -/
def broken (kind : FailureKind) : EntryPoint :=
  ⟨"other", Registry.engineGroup, .error ⟨kind, "bad plugin"⟩⟩

/-- The entry of the engine that has something to say. -/
def loudEntry : EntryPoint := ⟨"loud", Registry.engineGroup, .ok (.ok loudEngine)⟩

theorem selects_loudHost : ∃ invocation, Selects loudHost loudLine invocation "loud" := by
  obtain ⟨invocation, hchecked, hconfig, hoverrides⟩ :
      ∃ invocation,
        Invocation.ofArguments loudHost.disk loudHost.bound loudArguments = .ok invocation ∧
        invocation.config = none ∧
        invocation.overrides = { setExitStatus := some true, analyzer := some "loud" } :=
    ⟨_, rfl, by decide, rfl⟩
  refine ⟨invocation, ⟨loudArguments, read_loudLine, by decide, hchecked⟩, ?_⟩
  refine ⟨_, hconfig ▸ load_loudHost, ?_⟩
  rw [hoverrides]
  rfl

/-- A plugin that lacks a module is skipped, and all else is as if it were not there. -/
theorem undisturbed_loudHost : ∃ invocation, Selects loudHost loudLine invocation "loud" ∧
    Registry.IsAvailable (Registry.builtIn loudHost.parse)
      (.listed [broken .moduleMissing, loudEntry]) "loud" ∧
    Undisturbed (consoleOf loudHost invocation) "loud"
      [("other", ⟨.moduleMissing, "bad plugin"⟩)] []
      (run (loudHost.withInstalled [broken .moduleMissing, loudEntry]) loudLine)
      (run (loudHost.withInstalled [loudEntry]) loudLine) := by
  obtain ⟨invocation, hselects⟩ := selects_loudHost
  have havailable : Registry.IsAvailable (Registry.builtIn loudHost.parse)
      (.listed [broken .moduleMissing, loudEntry]) "loud" :=
    .inr ⟨loudEntry, Registry.mem_installed_iff.2 ⟨by simp, rfl⟩, rfl, _, rfl⟩
  refine ⟨invocation, hselects, havailable, ?_⟩
  exact (undisturbed_without hselects havailable).1
    (.drop ⟨by decide, fun _ => rfl⟩ (.keep loudEntry .nil))

/-- The command line names one file, so the built-in engine is asked for. -/
theorem selects_syntax : ∃ invocation, Selects loudHost ["x.py"] invocation "syntax" ∧
    invocation.config = none ∧ invocation.targets = ["x.py"] ∧ invocation.overrides = {} := by
  obtain ⟨invocation, hchecked, hasked⟩ : ∃ invocation,
      Invocation.ofArguments loudHost.disk loudHost.bound { targets := ["x.py"] } = .ok invocation ∧
        invocation.config = none ∧ invocation.targets = ["x.py"] ∧ invocation.overrides = {} :=
    ⟨_, rfl, by decide, rfl, rfl⟩
  refine ⟨invocation, ⟨⟨_, Arguments.read_targets (by decide), by decide, hchecked⟩, ?_⟩, hasked⟩
  refine ⟨_, hasked.1 ▸ load_loudHost, ?_⟩
  rw [hasked.2.2]
  rfl

/-- The built-in engine has nothing to say about the file. -/
theorem lint_syntax {invocation : Invocation} (htargets : invocation.targets = ["x.py"]) :
    (Stage.sequel loudHost invocation Settings.default
      (.ok (SyntaxEngine.engine loudHost.parse))).1 = .ok 0 := by
  rw [Stage.sequel, Stage.linting, Stage.runOn_bind, Stage.runOn_record]
  dsimp only
  rw [Stage.runOn_bind, Stage.runOn_adapt, Linter.run_eq_play, htargets, script_loudHost]
  decide +kernel

/-- A plugin that nobody asked for ends the command when it fails with a wrong type. Without it the
command does its work. -/
theorem run_ended_by_unselected : ∃ invocation, Selects loudHost ["x.py"] invocation "syntax" ∧
    Registry.IsAvailable (Registry.builtIn loudHost.parse) (.listed [broken .typeMismatch])
      "syntax" ∧
    Without (fun e => e.name ≠ "syntax") [broken .typeMismatch] [] ∧
    (run (loudHost.withInstalled [broken .typeMismatch]) ["x.py"]).status =
      .error (.plugin ⟨.typeMismatch, "bad plugin"⟩) ∧
    (run (loudHost.withInstalled []) ["x.py"]).status = .ok 0 := by
  obtain ⟨invocation, hselects, hconfig, htargets, hoverrides⟩ := selects_syntax
  have hload : Loaded.load loudHost.disk loudHost.disk.cwd invocation.config =
      .ok ⟨Settings.default, []⟩ := hconfig ▸ load_loudHost
  have hsettings : invocation.overrides.apply Settings.default = Settings.default := by
    rw [hoverrides]
    rfl
  have hstatus : ∀ entries made,
      (Registry.createAvailable (Registry.builtIn loudHost.parse) (.listed entries) "syntax").2 =
        made → (run (loudHost.withInstalled entries) ["x.py"]).status =
          statusOf (Stage.sequel loudHost invocation Settings.default made).1 := by
    rintro entries _ rfl
    have hload' : Loaded.load (loudHost.withInstalled entries).disk
        (loudHost.withInstalled entries).disk.cwd invocation.config =
          .ok ⟨Settings.default, []⟩ := hload
    have hlint := Stage.runOn_lint hload' (creation_withInstalled loudHost entries
      (invocation.overrides.apply Settings.default).analyzer)
    rw [hselects.run_eq, (perform_eq _ _).1, hlint, hsettings]
    rfl
  refine ⟨invocation, hselects, .inl (by decide), .drop (by decide) .nil, ?_, ?_⟩
  · exact hstatus [broken .typeMismatch] _ (by rfl)
  · rw [hstatus [] (.ok (SyntaxEngine.engine loudHost.parse)) (by rfl), lint_syntax htargets]
    rfl

end Command

end LintFront
