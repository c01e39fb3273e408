import LintFront.Proofs.CommandLine.Stages
import LintFront.Proofs.Run.Targets
import LintFront.Proofs.Settings.Project
/-!
# What the exit status tells

The exit status of a command is the only thing about it that another program looks at. It is two
when the command was used wrongly, and then nothing has been linted; it is one when there are
findings and the settings let findings count; and it is zero in every other case, whatever was
reported on the way. A command that was ended by a fault has no status at all.

Whether the command was used wrongly, and whether findings count, is said here without the stages of
the command: by its arguments, its files, what is installed and its targets.

## Main statements

`Command.status_truthful`: what the exit status of a command tells.
-/

namespace LintFront

/-! ## 1. What there is to tell -/

/-- The console of a host when nothing is switched. What is echoed does not hang on the switches. -/
def Host.console (host : Host) : Console := Console.ofSwitches true false false host.tty

namespace Command

/-- The ways in which a command line is a wrong usage on a host. -/
inductive Misuse (host : Host) (args : List String) : UsageError → Prop where
  | arguments (error : ArgumentError) (reading : Arguments.read args = .error error) :
      Misuse host args (.arguments error)
  | value (arguments : Arguments) (error : UsageError)
      (reading : Arguments.read args = .ok arguments)
      (checking : Invocation.ofArguments host.disk host.bound arguments = .error error) :
      Misuse host args error
  | settings (arguments : Arguments) (error : SettingsError)
      (reading : Arguments.read args = .ok arguments)
      (loading : Loaded.load host.disk host.disk.cwd (arguments.value? .config) =
        .error (.error error)) :
      Misuse host args (.settings error)
  | analyzer (arguments : Arguments) (loaded : Loaded) (name : String) (available : List String)
      (reading : Arguments.read args = .ok arguments)
      (loading : Loaded.load host.disk host.disk.cwd (arguments.value? .config) = .ok loaded)
      (making : (Stage.creation host
        ((arguments.value? .analyzer).getD loaded.settings.analyzer)).2 =
          .error (.unknown name available)) :
      Misuse host args (.noSuchAnalyzer name available)
  | targets (arguments : Arguments) (error : PlanError)
      (reading : Arguments.read args = .ok arguments)
      (planning : Plan.ofArguments host.disk
        (if arguments.targets.isEmpty then ["."] else arguments.targets) = .error error) :
      Misuse host args (.targets error)

/-- Findings make the command fail: the last switch on the command line says so or, when there is
none, the settings in the files. -/
def FailsOnFindings (host : Host) (args : List String) : Prop :=
  ∃ arguments loaded, Arguments.read args = .ok arguments ∧
    Loaded.load host.disk host.disk.cwd (arguments.value? .config) = .ok loaded ∧
    (arguments.switch? .setExitStatus).getD loaded.settings.setExitStatus = true

/-- The exit status tells the truth about what the command came to. -/
structure Truthful (host : Host) (args : List String) (outcome : Outcome) (status : Nat) :
    Prop where
  /-- It is two when the command was used wrongly, and only then. -/
  misused : status = 2 ↔ ∃ error, Misuse host args error
  /-- Then nothing was linted or printed, and the wrong usage is the last thing that is reported. -/
  refused : status = 2 → outcome.journal.calls = [] ∧ outcome.output.out = "" ∧
    ∃ error before, Misuse host args error ∧
      outcome.output.err = before ++ host.console.echoed error.report
  /-- It is one when findings count and there are some, and only then. -/
  failed : status = 1 ↔ FailsOnFindings host args ∧ outcome.journal.findings ≠ []
  /-- Then the last thing that is reported is how many they are. -/
  summed : status = 1 → ∃ before, outcome.output.err =
    before ++ host.console.echoed (failureSummary outcome.journal.findings.length)
  /-- In every other case it is zero. -/
  otherwise : status ≠ 2 → status ≠ 1 → status = 0
  /-- The standard output holds the findings and nothing else. -/
  printed : outcome.output.out =
    String.join (outcome.journal.findings.map fun f => host.console.echoed f.render)

/-! ## 2. Commands that were used wrongly -/

/-- A command that was used wrongly, and in whose journal are messages only, tells so. -/
theorem truthful_of_misuse {host : Host} {args : List String} {error : UsageError}
    (h : Misuse host args error) (console : Console) (hconsole : console.tty = host.tty)
    {journal : Journal} (quiet : Journal.GrowsQuietly {} journal) :
    Truthful host args
      { status := .ok usageStatus, journal,
        output := console.transcript journal.events ++ refusal console error } usageStatus := by
  have hfindings : journal.findings = [] := quiet.findings
  -- What was written before the report is the transcript of a journal without findings.
  have hout : (console.transcript journal.events ++ refusal console error).out = "" := by
    rw [Output.append_out, Console.out_transcript, show journal.events.filterMap _ = [] from
      hfindings]
    rfl
  have hecho : (refusal console error).err = host.console.echoed error.report := by
    rw [refusal, Console.echoed, hconsole]
    rfl
  constructor
  case misused => exact ⟨fun _ => ⟨error, h⟩, fun _ => rfl⟩
  case refused =>
    intro _
    exact ⟨quiet.calls, hout, error, _, h, by rw [Output.append_err, hecho]⟩
  case failed =>
    constructor
    · intro hone
      cases hone
    · rintro ⟨-, hsome⟩
      exact absurd hfindings hsome
  case summed =>
    intro hone
    cases hone
  case otherwise =>
    intro htwo
    exact absurd rfl htwo
  case printed =>
    dsimp only
    rw [hout, hfindings]
    rfl

/-! ## 3. Commands that came to the end of their run -/

theorem exitStatus_eq_one_iff {setExitStatus : Bool} {suggestions : Int} :
    exitStatus setExitStatus suggestions = 1 ↔ setExitStatus = true ∧ 0 < suggestions := by
  unfold exitStatus
  split <;> simp_all

theorem exitStatus_eq_zero_or_one (setExitStatus : Bool) (suggestions : Int) :
    exitStatus setExitStatus suggestions = 0 ∨ exitStatus setExitStatus suggestions = 1 := by
  unfold exitStatus
  split
  · exact .inr rfl
  · exact .inl rfl

theorem exitStatus_ne_two (setExitStatus : Bool) (suggestions : Int) :
    exitStatus setExitStatus suggestions ≠ 2 := by
  rcases exitStatus_eq_zero_or_one setExitStatus suggestions with h | h <;> rw [h] <;> decide

/-- The last thing that a command with findings that count reports is how many they are. -/
theorem err_transcript_concluded {host : Host} (settings : Settings) (journal : Journal)
    {console : Console} (hconsole : console.tty = host.tty)
    (hone : exitStatus settings.setExitStatus journal.tally.suggestions = 1) :
    ∃ before, (console.transcript (Stage.concluded settings journal).events).err =
      before ++ host.console.echoed (failureSummary journal.tally.suggestions) := by
  have hevents : (Stage.concluded settings journal).events =
      journal.events ++ [.concluded journal.tally.suggestions] := by
    rw [Stage.concluded, if_neg (by rw [hone]; exact Nat.one_ne_zero)]
  refine ⟨(console.transcript journal.events).err, ?_⟩
  rw [hevents, Console.transcript_append, Output.append_err]
  congr 1
  simp only [Console.transcript, Console.written, Output.append_err, Console.echoed, hconsole]
  exact String.append_empty

section

variable {host : Host} {args : List String} {arguments : Arguments} {invocation : Invocation}
  (reading : Arguments.read args = .ok arguments)
  (checking : Invocation.ofArguments host.disk host.bound arguments = .ok invocation)

/-- What is asked for is what the arguments say. -/
theorem says_of_ofArguments
    (checking : Invocation.ofArguments host.disk host.bound arguments = .ok invocation) :
    invocation.config = arguments.value? .config ∧
    invocation.targets = arguments.targets ∧
    invocation.overrides.setExitStatus = arguments.switch? .setExitStatus ∧
    invocation.overrides.analyzer = arguments.value? .analyzer := by
  simp only [Invocation.ofArguments, bind, Except.bind, pure, Except.pure] at checking
  split at checking
  · cases checking
  split at checking
  · cases checking
  · cases checking
    exact ⟨rfl, rfl, rfl, rfl⟩

include reading checking

/-- A command that was prepared and whose run came to its end was not used wrongly. -/
theorem not_misuse_of_ended {loaded : Loaded} {engine : Engine} {opened later : Journal}
    (prepared : Stage.Prepared host invocation loaded engine opened)
    (hrun : ((Stage.linterOf host invocation loaded engine).run host.disk
      invocation.targets).runOn opened = (.ok (), later)) (error : UsageError) :
    ¬Misuse host args error := by
  obtain ⟨hconfig, htargets, -, hanalyzer⟩ := says_of_ofArguments checking
  have hloading := hconfig ▸ prepared.loading
  intro hmisuse
  -- Each way of being used wrongly is a step that failed, and here all steps have succeeded on the
  -- same arguments.
  cases hmisuse with
  | arguments error hreading =>
    rw [reading] at hreading
    cases hreading
  | value other error hreading hchecking =>
    obtain rfl := Except.ok.inj (reading.symm.trans hreading)
    rw [checking] at hchecking
    cases hchecking
  | settings other error hreading hload =>
    obtain rfl := Except.ok.inj (reading.symm.trans hreading)
    rw [hloading] at hload
    cases hload
  | analyzer other loaded' name available hreading hload hmaking =>
    obtain rfl := Except.ok.inj (reading.symm.trans hreading)
    obtain rfl := Except.ok.inj (hloading.symm.trans hload)
    have hmade := prepared.making
    rw [Overrides.apply, hanalyzer] at hmade
    rw [hmade] at hmaking
    cases hmaking
  | targets other error hreading hplan =>
    obtain rfl := Except.ok.inj (reading.symm.trans hreading)
    rw [← htargets] at hplan
    rw [Linter.run_of_plan_eq_error _ hplan] at hrun
    cases hrun

/-- Whether findings count is what the settings say that the command ended up with. -/
theorem failsOnFindings_iff_of_loaded {loaded : Loaded}
    (loading : Loaded.load host.disk host.disk.cwd invocation.config = .ok loaded) :
    FailsOnFindings host args ↔
      (invocation.overrides.apply loaded.settings).setExitStatus = true := by
  obtain ⟨hconfig, -, hswitch, -⟩ := says_of_ofArguments checking
  rw [Overrides.apply, hswitch]
  rw [hconfig] at loading
  constructor
  · rintro ⟨other, loaded', hreading, hload, hcounts⟩
    obtain rfl := Except.ok.inj (reading.symm.trans hreading)
    obtain rfl := Except.ok.inj (loading.symm.trans hload)
    exact hcounts
  · intro hcounts
    exact ⟨arguments, loaded, reading, loading, hcounts⟩

/-- A command whose run came to its end tells so. -/
theorem truthful_of_ended {loaded : Loaded} {engine : Engine} {opened later : Journal}
    (prepared : Stage.Prepared host invocation loaded engine opened)
    (hrun : ((Stage.linterOf host invocation loaded engine).run host.disk
      invocation.targets).runOn opened = (.ok (), later))
    {console : Console} (hconsole : console.tty = host.tty) :
    let settings := invocation.overrides.apply loaded.settings
    let journal := Stage.concluded settings later
    Truthful host args
      { status := .ok (exitStatus settings.setExitStatus later.tally.suggestions), journal,
        output := console.transcript journal.events }
      (exitStatus settings.setExitStatus later.tally.suggestions) := by
  intro settings journal
  have hcounts := failsOnFindings_iff_of_loaded reading checking prepared.loading
  have hmisuse := not_misuse_of_ended reading checking prepared hrun
  -- The accounts hold at the end of the run, so the tally tells how many findings were printed.
  have hbalanced : (Stage.linterOf host invocation loaded engine).reporter.Balanced later := by
    have hlater := prepared.balanced_run
    rw [hrun] at hlater
    exact hlater
  have hfindings : journal.findings = later.findings :=
    (Stage.growsQuietly_concluded settings later).findings
  have hcount : (0 : Int) < later.tally.suggestions ↔ journal.findings ≠ [] := by
    rw [hbalanced.suggestions, hfindings, Int.natCast_pos, List.length_pos_iff]
  have hneither := exitStatus_ne_two settings.setExitStatus later.tally.suggestions
  constructor
  case misused =>
    constructor
    · exact fun htwo => absurd htwo hneither
    · rintro ⟨error, herror⟩
      exact absurd herror (hmisuse error)
  case refused => exact fun htwo => absurd htwo hneither
  case failed => rw [exitStatus_eq_one_iff, hcounts, hcount]
  case summed =>
    intro hone
    obtain ⟨before, herr⟩ := err_transcript_concluded settings later hconsole hone
    exact ⟨before, by rw [hfindings, ← hbalanced.suggestions]; exact herr⟩
  case otherwise =>
    intro _ hone
    exact (exitStatus_eq_zero_or_one _ _).resolve_right hone
  case printed =>
    dsimp only
    rw [Console.out_transcript]
    simp only [Console.echoed, hconsole]
    rfl

end

/-! ## 4. All commands -/

/-- A command whose arguments make sense tells the truth, in whichever way it goes. -/
theorem truthful_perform {host : Host} {args : List String} {arguments : Arguments}
    {invocation : Invocation} (reading : Arguments.read args = .ok arguments)
    (checking : Invocation.ofArguments host.disk host.bound arguments = .ok invocation)
    {status : Nat}
    (hends : (perform host invocation).status = .ok status) :
    Truthful host args (perform host invocation) status := by
  obtain ⟨hconfig, htargets, -, hanalyzer⟩ := says_of_ofArguments checking
  obtain ⟨ending, journal, hrun, hcourse⟩ := Stage.exists_course host invocation
  unfold perform at hends ⊢
  rw [hrun] at hends ⊢
  -- Of the courses that a command can take, two end without a status and so are none of this.
  cases hcourse with
  | settings error loading =>
    cases hends
    exact truthful_of_misuse (.settings arguments error reading (hconfig ▸ loading)) _ rfl
      (Journal.GrowsQuietly.refl _)
  | analyzer loaded name available opened loading making opening =>
    cases hends
    rw [Overrides.apply, hanalyzer] at making
    exact truthful_of_misuse
      (.analyzer arguments loaded name available reading (hconfig ▸ loading) making) _ rfl opening
  | targets loaded error opened loading planning opening =>
    cases hends
    rw [htargets] at planning
    exact truthful_of_misuse (.targets arguments error reading planning) _ rfl opening
  | loading fault => cases hends
  | fault loaded fault later => cases hends
  | ended loaded engine opened later prepared run =>
    cases hends
    exact truthful_of_ended reading checking prepared run rfl

/-- The exit status tells the truth about every command that has one, unless it asks for help: it is
two exactly when the command was used wrongly, and then nothing was linted and nothing is on the
standard output; it is one exactly when findings count and some were printed, and then the last
thing reported is how many; and it is zero otherwise. -/
theorem status_truthful {host : Host} {args : List String} {status : Nat}
    (hhelp : ∀ arguments, Arguments.read args = .ok arguments → arguments.has .help = false)
    (hends : (run host args).status = .ok status) : Truthful host args (run host args) status := by
  unfold run at hends ⊢
  cases hread : Arguments.read args with
  | error error =>
    rw [hread] at hends
    cases hends
    exact truthful_of_misuse (.arguments error hread) host.console rfl
      (Journal.GrowsQuietly.refl _)
  | ok arguments =>
    rw [hread] at hends
    dsimp only at hends ⊢
    rw [hhelp arguments hread] at hends ⊢
    cases hcheck : Invocation.ofArguments host.disk host.bound arguments with
    | error error =>
      rw [hcheck] at hends
      cases hends
      exact truthful_of_misuse (.value arguments error hread hcheck) host.console rfl
        (Journal.GrowsQuietly.refl _)
    | ok invocation =>
      rw [hcheck] at hends
      exact truthful_perform hread hcheck hends

/-! ## 5. A command whose findings make it fail -/

/-- An engine that finds the same fault in every unit. -/
def loudEngine : Engine where
  name := "loud"
  inspect _ _ _ := .findings
    [{ position := { file := "x.py" }, text := "fault",
       confidence := .finite false Double.grainsPerOne }]

/-- A host with one source file, and with that engine. -/
def loudHost : Host where
  disk := { root := .directory [("x.py", .file .empty)], here := [] }
  installation := .listed [⟨"loud", Registry.engineGroup, .ok (.ok loudEngine)⟩]
  parse _ _ := .parses

/-- A command line that lets findings count and chooses the engine. -/
def loudLine : List String := ["--set-exit-status", "--analyzer=loud", "x.py"]

/-- The command line taken apart. -/
def loudArguments : Arguments where
  mentions := [(.setExitStatus, .switch true), (.analyzer, .value "loud")]
  targets := ["x.py"]

theorem read_loudLine : Arguments.read loudLine = .ok loudArguments := by
  have hfirst : Spelling.find? "--set-exit-status" = some ⟨.setExitStatus, some true⟩ := by
    decide +kernel
  have hsecond : Spelling.find? "--analyzer" = some ⟨.analyzer, none⟩ := by decide +kernel
  have hcutFirst : Arguments.cut "--set-exit-status" = ("--set-exit-status", none) := by
    decide +kernel
  have hcutSecond : Arguments.cut "--analyzer=loud" = ("--analyzer", some "loud") := by
    decide +kernel
  have hrest : Arguments.read ["x.py"] = .ok { targets := ["x.py"] } :=
    Arguments.read_targets (by decide)
  rw [Arguments.read] at hrest ⊢
  unfold loudLine
  rw [Arguments.readFrom, if_neg (by decide), if_neg (by decide), hcutFirst]
  dsimp only
  rw [hfirst, Arguments.readFrom, if_neg (by decide), if_neg (by decide), hcutSecond]
  dsimp only
  rw [hsecond, hrest]
  rfl

/-- There are no files with settings. -/
theorem load_loudHost :
    Loaded.load loudHost.disk loudHost.disk.cwd none = .ok ⟨Settings.default, []⟩ := by
  have hcwd : loudHost.disk.cwd = "/" := by decide
  have hfiles : Loaded.files "/" none =
      [{ path := "/pyproject.toml", inSection := true }, { path := "/.unitlint.toml" }] := by
    decide +kernel
  have habsent : ∀ path name, Disk.SpellsOut path ([] ++ [name]) → name ≠ "x.py" →
      loudHost.disk.node path = .error .missing := by
    intro path name hspells hname
    refine Disk.node_of_spellsOut_of_find?_eq_none rfl hspells rfl ?_
    rw [Entries.find?_eq_none_iff]
    simpa [Entries.names] using hname
  have hmanifest := habsent "/pyproject.toml" "pyproject.toml" (by decide) (by decide)
  have hown := habsent "/.unitlint.toml" ".unitlint.toml" (by decide) (by decide)
  rw [hcwd, Loaded.load, hfiles]
  simp only [List.mapM_cons, List.mapM_nil, SettingsFile.load, SettingsFile.isPresent, hmanifest,
    hown]
  rfl

/-- The one file is given to the engine. -/
theorem script_loudHost (linter : Linter) :
    linter.script loudHost.disk ["x.py"] =
      { moves := [.note "run kind=files targets=1", .give [("x.py", .empty)]] } := by
  have hnode : loudHost.disk.node "x.py" = .ok (.file .empty) :=
    Disk.node_of_spellsOut rfl (show Disk.SpellsOut _ ["x.py"] by decide) rfl
      (Node.file_ne_link _)
  have hdirectory : loudHost.disk.isDirectory "x.py" = false := by
    rw [Disk.isDirectory, hnode]
    rfl
  have hholds : loudHost.disk.holds "x.py" = true := by rw [Disk.holds, hnode]
  have hclassify : Target.classify loudHost.disk "x.py" = ⟨"x.py", .file, false⟩ := by
    rw [Target.classify, show hasMarker "x.py" = false by decide, hdirectory, hholds]
    rfl
  have htargets : Linter.targetsOf loudHost.disk ["x.py"] = [⟨"x.py", .file, false⟩] :=
    congrArg (fun target => [target]) hclassify
  have hread : loudHost.disk.read "x.py" = .ok .empty := Disk.read_eq_ok hnode
  have hreading : Reading.ofPaths loudHost.disk ["x.py"] =
      .ok { sources := [("x.py", .empty)] } := by
    rw [Reading.ofPaths, Reading.readAll, Reading.readNext, hread]
    rfl
  have hkind : ∀ target ∈ Linter.targetsOf loudHost.disk ["x.py"], target.kind = .file := by
    rw [htargets]
    decide
  rw [Linter.script_eq linter hkind, htargets, Linter.scriptOfPlan, Linter.scriptOfBatch,
    show (Batch.ofPaths _ _).paths = ["x.py"] by decide, hreading]
  rfl

/-- What is left of a command on that host once it is prepared: the one file is given to the engine,
and the exit status is told. -/
def loudRest (settings : Settings) : Stage Nat := do
  ExceptT.adapt Stage.endingOf ((Stage.linter loudHost settings loudEngine).reporter.play
    { moves := [.note "run kind=files targets=1", .give [("x.py", .empty)]] })
  Stage.conclude settings

/-- A command that asks for the engine and the file comes to giving the file to the engine. -/
theorem runOn_lint_loudHost {invocation : Invocation} (hconfig : invocation.config = none)
    (htargets : invocation.targets = ["x.py"])
    (hanalyzer : (invocation.overrides.apply .default).analyzer = "loud") :
    let settings := invocation.overrides.apply .default
    (Stage.lint loudHost invocation).runOn {} = (loudRest settings).runOn
      { events := [.noted ("analyzer=loud min_confidence=" ++ settings.minConfidence.text)] } := by
  have hmade : (Stage.creation loudHost "loud").2 = .ok loudEngine := by cbv
  have hskipped : (Stage.creation loudHost "loud").1 = [] := by cbv
  rw [Stage.lint, Stage.runOn_bind, Stage.runOn_settings, hconfig, load_loudHost]
  dsimp only
  rw [Stage.runOn_bind, Stage.runOn_engine, hanalyzer, hmade, hskipped]
  simp only [Except.mapError]
  rw [Stage.runOn_bind, Stage.runOn_record]
  dsimp only
  rw [Linter.run_eq_play, htargets, script_loudHost]
  rfl

/-- The engine is called once, and its finding makes the command fail. -/
theorem lint_loudHost {invocation : Invocation} (hconfig : invocation.config = none)
    (htargets : invocation.targets = ["x.py"])
    (hoverrides : invocation.overrides =
      { setExitStatus := some true, analyzer := some "loud" }) :
    ((Stage.lint loudHost invocation).runOn {}).1 = .ok 1 ∧
      ((Stage.lint loudHost invocation).runOn {}).2.calls.length = 1 := by
  rw [runOn_lint_loudHost hconfig htargets (by rw [hoverrides]; rfl), hoverrides]
  decide +kernel

/-- The command line is accepted, and what is asked for is done. -/
theorem exists_perform_loudHost : ∃ invocation,
    run loudHost loudLine = perform loudHost invocation ∧ invocation.config = none ∧
    invocation.targets = ["x.py"] ∧
    invocation.overrides = { setExitStatus := some true, analyzer := some "loud" } := by
  obtain ⟨invocation, hchecked, hasked⟩ :
      ∃ invocation,
        Invocation.ofArguments loudHost.disk loudHost.bound loudArguments = .ok invocation ∧
        invocation.config = none ∧ invocation.targets = ["x.py"] ∧
        invocation.overrides = { setExitStatus := some true, analyzer := some "loud" } :=
    ⟨_, rfl, by decide, rfl, rfl⟩
  refine ⟨invocation, ?_, hasked⟩
  rw [run, read_loudLine]
  dsimp only
  rw [show loudArguments.has .help = false by decide, hchecked]
  rfl

/-- The exit status is the one with which the stages end. -/
theorem status_perform {host : Host} {invocation : Invocation} {status : Nat}
    (h : ((Stage.lint host invocation).runOn {}).1 = .ok status) :
    (perform host invocation).status = .ok status := by
  unfold perform
  rcases hlint : StateT.run (ExceptT.run (Stage.lint host invocation)) {} with
    ⟨ending, journal⟩
  obtain rfl : ending = .ok status := (congrArg Prod.fst hlint).symm.trans h
  rfl

/-- The finding of the engine makes the command fail. -/
theorem status_loudHost : (run loudHost loudLine).status = .ok 1 := by
  obtain ⟨invocation, hrun, hconfig, htargets, hoverrides⟩ := exists_perform_loudHost
  rw [hrun]
  exact status_perform (lint_loudHost hconfig htargets hoverrides).1

theorem truthful_loudHost :
    (run loudHost loudLine).status = .ok 1 ∧ Truthful loudHost loudLine (run loudHost loudLine) 1 :=
  by
  refine ⟨status_loudHost, status_truthful ?_ status_loudHost⟩
  intro arguments hread
  obtain rfl := Except.ok.inj (read_loudLine.symm.trans hread)
  decide

end Command

end LintFront
