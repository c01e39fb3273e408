import LintFront.CommandLine.Command
import LintFront.Proofs.Run.Accounts
import LintFront.Proofs.Run.Endings
/-!
# The stages of a command

A command goes through its stages one after the other, and each of them may end it. Here each stage
is told by what it makes of the journal, and from this the ways are read off in which a command can
go: it was used wrongly, or a fault ended it, or the run came to its end and the exit status was
told. Only the run adds anything but messages to the journal, so wherever a command was used wrongly
nothing has been linted.

## Main statements

`Stage.course_lint`: the ways in which a command can go. `Stage.balanced_lint`: what there is in the
journal of a command, however it ends.
-/

namespace LintFront

/-- The later journal has some messages more and is the same in all else. -/
def Journal.GrowsQuietly (journal later : Journal) : Prop :=
  ∃ events : List Event, (∀ event ∈ events, event.IsQuiet) ∧
    later = { journal with events := journal.events ++ events }

/-- Among messages there is no call and no finding. -/
theorem Event.filterMap_of_isQuiet {events : List Event} (h : ∀ event ∈ events, event.IsQuiet) :
    events.filterMap Event.call? = [] ∧ events.filterMap Event.finding? = [] :=
  ⟨List.filterMap_eq_nil_iff.2 fun event hevent => (h event hevent).1,
    List.filterMap_eq_nil_iff.2 fun event hevent => (h event hevent).2⟩

namespace Journal.GrowsQuietly

theorem refl (journal : Journal) : journal.GrowsQuietly journal :=
  ⟨[], List.forall_mem_nil _, by simp⟩

theorem trans {a b c : Journal} (hab : a.GrowsQuietly b) (hbc : b.GrowsQuietly c) :
    a.GrowsQuietly c := by
  obtain ⟨first, hfirst, rfl⟩ := hab
  obtain ⟨second, hsecond, rfl⟩ := hbc
  refine ⟨first ++ second, ?_, by simp⟩
  intro event hevent
  rcases List.mem_append.1 hevent with h | h
  · exact hfirst event h
  · exact hsecond event h

/-- What is said of things one after the other are messages. -/
theorem tell {ι : Type} (journal : Journal) (items : List ι) (event : ι → Event)
    (h : ∀ i, (event i).IsQuiet) :
    journal.GrowsQuietly { journal with events := journal.events ++ items.map event } := by
  refine ⟨items.map event, ?_, rfl⟩
  intro e he
  obtain ⟨i, -, rfl⟩ := List.mem_map.1 he
  exact h i

theorem calls {journal later : Journal} (h : journal.GrowsQuietly later) :
    later.calls = journal.calls := by
  obtain ⟨events, hquiet, rfl⟩ := h
  simp [Journal.calls, Event.filterMap_of_isQuiet hquiet]

theorem findings {journal later : Journal} (h : journal.GrowsQuietly later) :
    later.findings = journal.findings := by
  obtain ⟨events, hquiet, rfl⟩ := h
  simp [Journal.findings, Event.filterMap_of_isQuiet hquiet]

/-- Messages leave the accounts of every reporter as they are. -/
theorem balanced {journal later : Journal} (h : journal.GrowsQuietly later) {reporter : Reporter}
    (hbalanced : reporter.Balanced journal) : reporter.Balanced later := by
  have hcalls := h.calls
  have hfindings := h.findings
  obtain ⟨events, -, rfl⟩ := h
  constructor
  · rw [hcalls]
    exact hbalanced.units
  · rw [hfindings]
    exact hbalanced.suggestions
  · rw [hcalls, hfindings]
    exact hbalanced.findings
  · rw [hcalls]
    exact hbalanced.calls

end Journal.GrowsQuietly

namespace Stage

variable {α β : Type}

/-! ## 1. What a stage makes of a journal -/

/-- The stage over a journal: how it ends, and the journal then. -/
def runOn (stage : Stage α) (journal : Journal) : Except Ending α × Journal :=
  StateT.run (ExceptT.run stage) journal

@[simp] theorem runOn_pure (a : α) (journal : Journal) :
    (pure a : Stage α).runOn journal = (.ok a, journal) := rfl

@[simp] theorem runOn_throw (ending : Ending) (journal : Journal) :
    (throw ending : Stage α).runOn journal = (.error ending, journal) := rfl

@[simp] theorem runOn_record (event : Event) (journal : Journal) :
    (record event).runOn journal = (.ok (), { journal with events := journal.events ++ [event] }) :=
  rfl

theorem runOn_bind (stage : Stage α) (next : α → Stage β) (journal : Journal) :
    (stage >>= next).runOn journal =
      match stage.runOn journal with
      | (.ok a, later) => (next a).runOn later
      | (.error ending, later) => (.error ending, later) := by
  show (ExceptT.bindCont next (stage.runOn journal).1).run (stage.runOn journal).2 = _
  rcases stage.runOn journal with ⟨_ | _, _⟩ <;> rfl

/-- A run as a stage: its faults become endings of the command. -/
theorem runOn_adapt (run : Run α) (journal : Journal) :
    Stage.runOn (ExceptT.adapt endingOf run) journal =
      match run.runOn journal with
      | (.ok a, later) => (.ok a, later)
      | (.error fault, later) => (.error (endingOf fault), later) := by
  show ((run.runOn journal).1.mapError endingOf, (run.runOn journal).2) = _
  rcases run.runOn journal with ⟨_ | _, _⟩ <;> rfl

theorem runOn_forM_record {ι : Type} (items : List ι) (event : ι → Event) (journal : Journal) :
    Stage.runOn (items.forM fun i => record (event i)) journal =
      (.ok (), { journal with events := journal.events ++ items.map event }) := by
  induction items generalizing journal with
  | nil => simp [List.forM]
  | cons i items ih =>
    show (record (event i) >>= fun _ => items.forM fun i => record (event i)).runOn journal = _
    rw [runOn_bind, runOn_record]
    simp only [ih, List.map_cons, List.append_assoc, List.singleton_append]

/-! ## 2. The single stages -/

/-- What is said of a layer that had a part in the settings. -/
def sourced (name : String) : Event := .noted ("config source=" ++ name)

theorem runOn_settings (host : Host) (invocation : Invocation) (journal : Journal) :
    (settings host invocation).runOn journal =
      match Loaded.load host.disk host.disk.cwd invocation.config with
      | .error (.error error) => (.error (.usage (.settings error)), journal)
      | .error (.fault fault) => (.error (.fault (.loading fault)), journal)
      | .ok loaded =>
        (.ok (invocation.overrides.apply loaded.settings),
          { journal with events := journal.events ++ loaded.applied.map sourced }) := by
  unfold settings
  rcases Loaded.load host.disk host.disk.cwd invocation.config with (error | fault) | loaded
  · rfl
  · rfl
  · simp only [runOn_bind, runOn_forM_record, runOn_pure]
    rfl

/-- The engine that a name stands for, and the entries that are skipped on the way. -/
def creation (host : Host) (name : String) :
    List Registry.Skipped × Except Registry.CreateError Engine :=
  Registry.createAvailable (Registry.builtIn host.parse) host.installation name

/-- What it means to the command that there is no engine. -/
def endingOfCreation : Registry.CreateError → Ending
  | .unknown name available => .usage (.noSuchAnalyzer name available)
  | .loading failure => .fault (.plugin failure)
  | .making failure => .fault (.making failure)

/-- What is said of an entry that is skipped. -/
def skipping (entry : Registry.Skipped) : Event :=
  .warned ("skipping analyzer plugin " ++ entry.1 ++ ": " ++ entry.2.message)

theorem runOn_engine (host : Host) (name : String) (journal : Journal) :
    (engine host name).runOn journal =
      ((creation host name).2.mapError endingOfCreation,
        { journal with events := journal.events ++ (creation host name).1.map skipping }) := by
  unfold engine creation
  rcases Registry.createAvailable (Registry.builtIn host.parse) host.installation name with
    ⟨skipped, error | engine⟩
  · cases error <;> simp only [runOn_bind, runOn_forM_record] <;> rfl
  · simp only [runOn_bind, runOn_forM_record]
    rfl

/-- The journal of a run that came to its end, once the exit status was told. -/
def concluded (settings : Settings) (journal : Journal) : Journal :=
  if exitStatus settings.setExitStatus journal.tally.suggestions = 0 then journal
  else { journal with events := journal.events ++ [.concluded journal.tally.suggestions] }

/-- To tell the exit status adds a message at most. -/
theorem growsQuietly_concluded (settings : Settings) (journal : Journal) :
    journal.GrowsQuietly (concluded settings journal) := by
  unfold concluded
  split
  · exact .refl journal
  · exact .tell journal [()] (fun _ => .concluded journal.tally.suggestions) fun _ => ⟨rfl, rfl⟩

@[simp] theorem tally_concluded (settings : Settings) (journal : Journal) :
    (concluded settings journal).tally = journal.tally := by
  unfold concluded
  split <;> rfl

theorem runOn_conclude (settings : Settings) (journal : Journal) :
    (conclude settings).runOn journal =
      (.ok (exitStatus settings.setExitStatus journal.tally.suggestions),
        concluded settings journal) := by
  have hget : Stage.runOn (get : Stage Journal) journal = (.ok journal, journal) := rfl
  rw [conclude, runOn_bind, hget, concluded]
  dsimp only
  by_cases hstatus : exitStatus settings.setExitStatus journal.tally.suggestions = 0
  · rw [if_pos hstatus, if_neg (not_not_intro hstatus)]
    rfl
  · rw [if_neg hstatus, if_pos hstatus]
    rfl

/-! ## 3. The ways in which a command can go -/

/-- The settings are loaded, the engine is made, and nothing is in the journal but messages. -/
structure Prepared (host : Host) (invocation : Invocation) (loaded : Loaded) (engine : Engine)
    (opened : Journal) : Prop where
  loading : Loaded.load host.disk host.disk.cwd invocation.config = .ok loaded
  making : (creation host (invocation.overrides.apply loaded.settings).analyzer).2 = .ok engine
  opening : Journal.GrowsQuietly {} opened

/-- The linter of a command once it is prepared. -/
def linterOf (host : Host) (invocation : Invocation) (loaded : Loaded) (engine : Engine) : Linter :=
  linter host (invocation.overrides.apply loaded.settings) engine

/-- The ways in which a command can go: how it ends, and the journal then. -/
inductive Course (host : Host) (invocation : Invocation) : Except Ending Nat → Journal → Prop where
  | settings (error : SettingsError)
      (loading : Loaded.load host.disk host.disk.cwd invocation.config = .error (.error error)) :
      Course host invocation (.error (.usage (.settings error))) {}
  | analyzer (loaded : Loaded) (name : String) (available : List String) (opened : Journal)
      (loading : Loaded.load host.disk host.disk.cwd invocation.config = .ok loaded)
      (making : (creation host (invocation.overrides.apply loaded.settings).analyzer).2 =
        .error (.unknown name available))
      (opening : Journal.GrowsQuietly {} opened) :
      Course host invocation (.error (.usage (.noSuchAnalyzer name available))) opened
  | targets (loaded : Loaded) (error : PlanError) (opened : Journal)
      (loading : Loaded.load host.disk host.disk.cwd invocation.config = .ok loaded)
      (planning : Plan.ofArguments host.disk
        (if invocation.targets.isEmpty then ["."] else invocation.targets) = .error error)
      (opening : Journal.GrowsQuietly {} opened) :
      Course host invocation (.error (.usage (.targets error))) opened
  | loading (fault : LoadFault)
      (loading : Loaded.load host.disk host.disk.cwd invocation.config = .error (.fault fault)) :
      Course host invocation (.error (.fault (.loading fault))) {}
  | fault (loaded : Loaded) (fault : CommandFault) (later : Journal)
      (loading : Loaded.load host.disk host.disk.cwd invocation.config = .ok loaded)
      (other : ∀ cause, fault ≠ .loading cause) :
      Course host invocation (.error (.fault fault)) later
  | ended (loaded : Loaded) (engine : Engine) (opened later : Journal)
      (prepared : Prepared host invocation loaded engine opened)
      (run : ((linterOf host invocation loaded engine).run host.disk invocation.targets).runOn
        opened = (.ok (), later)) :
      Course host invocation
        (.ok (exitStatus (invocation.overrides.apply loaded.settings).setExitStatus
          later.tally.suggestions))
        (concluded (invocation.overrides.apply loaded.settings) later)

/-- Once a command is prepared it is ended by targets that form no plan, by a fault, or by the end
of the run. -/
theorem course_of_prepared {host : Host} {invocation : Invocation} {loaded : Loaded}
    {engine : Engine} {opened : Journal} (h : Prepared host invocation loaded engine opened)
    {ending : Except Ending Nat × Journal}
    (hrest : Stage.runOn (do
      ExceptT.adapt endingOf
        ((linterOf host invocation loaded engine).run host.disk invocation.targets)
      conclude (invocation.overrides.apply loaded.settings)) opened = ending) :
    Course host invocation ending.1 ending.2 := by
  rw [runOn_bind, runOn_adapt] at hrest
  cases hplan : Plan.ofArguments host.disk
      (if invocation.targets.isEmpty then ["."] else invocation.targets) with
  | error error =>
    rw [Linter.run_of_plan_eq_error _ hplan] at hrest
    subst hrest
    exact .targets loaded error opened h.loading hplan h.opening
  | ok plan =>
    have hno := (linterOf host invocation loaded engine).run_ne_plan hplan opened
    rcases hrun : ((linterOf host invocation loaded engine).run host.disk
      invocation.targets).runOn opened with ⟨fault | ⟨⟩, later⟩
    · rw [hrun] at hrest hno
      subst hrest
      -- What is left of the faults of a run are faults of the command.
      cases fault with
      | plan error => exact absurd rfl (hno error)
      | fault fault => exact .fault loaded _ later h.loading nofun
      | crash message => exact .fault loaded _ later h.loading nofun
    · rw [hrun] at hrest
      dsimp only at hrest
      rw [runOn_conclude] at hrest
      subst hrest
      exact .ended loaded engine opened later h hrun

/-- A command is prepared and goes on over a journal of messages, or it is ended before that and has
added nothing but messages. -/
theorem lint_opens (host : Host) (invocation : Invocation) :
    (∃ loaded engine opened, Prepared host invocation loaded engine opened ∧
      (lint host invocation).runOn {} = Stage.runOn (do
        ExceptT.adapt endingOf
          ((linterOf host invocation loaded engine).run host.disk invocation.targets)
        conclude (invocation.overrides.apply loaded.settings)) opened) ∨
    Course host invocation ((lint host invocation).runOn {}).1
        ((lint host invocation).runOn {}).2 ∧
      Journal.GrowsQuietly {} ((lint host invocation).runOn {}).2 := by
  -- The stages before the run add messages only, and these are gathered on the way.
  rw [lint, runOn_bind, runOn_settings]
  rcases hload : Loaded.load host.disk host.disk.cwd invocation.config with
    (error | fault) | loaded
  · exact .inr ⟨.settings error hload, .refl _⟩
  · exact .inr ⟨.loading fault hload, .refl _⟩
  · dsimp only
    rw [runOn_bind, runOn_engine]
    have hsettings := Journal.GrowsQuietly.tell {} loaded.applied sourced fun _ => ⟨rfl, rfl⟩
    have hengine := hsettings.trans (Journal.GrowsQuietly.tell _
      (creation host (invocation.overrides.apply loaded.settings).analyzer).1 skipping
      fun _ => ⟨rfl, rfl⟩)
    rcases hmake : (creation host (invocation.overrides.apply loaded.settings).analyzer).2 with
      error | engine
    · cases error with
      | unknown name available => exact .inr ⟨.analyzer loaded name available _ hload hmake hengine,
          hengine⟩
      | loading failure => exact .inr ⟨.fault loaded _ _ hload nofun, hengine⟩
      | making failure => exact .inr ⟨.fault loaded _ _ hload nofun, hengine⟩
    · dsimp only [Except.mapError]
      rw [runOn_bind, runOn_record]
      have hopened := hengine.trans (Journal.GrowsQuietly.tell _ [()]
        (fun _ => .noted ("analyzer=" ++ engine.name ++ " min_confidence=" ++
          (invocation.overrides.apply loaded.settings).minConfidence.text)) fun _ => ⟨rfl, rfl⟩)
      exact .inl ⟨loaded, engine, _, ⟨hload, hmake, hopened⟩, rfl⟩

/-- A command goes one of these ways. -/
theorem course_lint (host : Host) (invocation : Invocation) :
    Course host invocation ((lint host invocation).runOn {}).1
      ((lint host invocation).runOn {}).2 := by
  rcases lint_opens host invocation with ⟨loaded, engine, opened, prepared, hrest⟩ | ⟨hcourse, -⟩
  · exact course_of_prepared prepared hrest.symm
  · exact hcourse

/-- So does a command when it is run from the empty journal. -/
theorem exists_course (host : Host) (invocation : Invocation) :
    ∃ ending journal, StateT.run (ExceptT.run (lint host invocation)) {} = (ending, journal) ∧
      Course host invocation ending journal :=
  ⟨_, _, rfl, course_lint host invocation⟩

/-! ## 4. What a command adds to the journal -/

/-- Once a command is prepared, the run leaves the accounts of its reporter in balance. -/
theorem Prepared.balanced_run {host : Host} {invocation : Invocation} {loaded : Loaded}
    {engine : Engine} {opened : Journal} (h : Prepared host invocation loaded engine opened) :
    (linterOf host invocation loaded engine).reporter.Balanced
      (((linterOf host invocation loaded engine).run host.disk invocation.targets).runOn
        opened).2 := by
  rw [Linter.run_eq_play]
  exact Reporter.keeps_balanced _ _ opened (h.opening.balanced (Reporter.balanced_start _))

/-- However a command ends, there is nothing in its journal but messages, or it was prepared and the
accounts of its reporter are in balance. -/
theorem balanced_lint (host : Host) (invocation : Invocation) :
    (∃ loaded engine opened, Prepared host invocation loaded engine opened ∧
      (linterOf host invocation loaded engine).reporter.Balanced
        ((lint host invocation).runOn {}).2) ∨
    Journal.GrowsQuietly {} ((lint host invocation).runOn {}).2 := by
  rcases lint_opens host invocation with ⟨loaded, engine, opened, prepared, hrest⟩ | ⟨-, hquiet⟩
  · refine .inl ⟨loaded, engine, opened, prepared, ?_⟩
    have hbalanced := prepared.balanced_run
    rw [hrest, runOn_bind, runOn_adapt]
    -- A fault leaves the journal as the run left it; otherwise the exit status is told after it.
    rcases hrun : ((linterOf host invocation loaded engine).run host.disk
      invocation.targets).runOn opened with ⟨fault | ⟨⟩, later⟩
    · rw [hrun] at hbalanced
      exact hbalanced
    · rw [hrun] at hbalanced
      dsimp only
      rw [runOn_conclude]
      exact (growsQuietly_concluded _ later).balanced hbalanced
  · exact .inr hquiet

end Stage

end LintFront
