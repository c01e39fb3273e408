import LintFront.Proofs.Run.Steps
/-!
# The script of a run

What a run does next hangs on the disk and on the arguments, and not on what the engine answers: the
engine can end a run, but it cannot turn it elsewhere. So a run follows a *script* that is known
before the engine is asked for the first time. A script is a list of moves, each a message or a
batch of files for the engine, and the fault that ends it, if one does.

`Linter.script` is the script of a run, computed without an engine and without a journal, and
`Reporter.play` follows a script. Whatever hangs on the moves alone is then said about lists.

## Main statements

`Linter.run_eq_play`: a run follows its script.
-/

namespace LintFront

/-! ## 1. Scripts -/

/-- One thing that a run does. -/
inductive Move where
  /-- A message for debugging. -/
  | note (message : String)
  /-- A failure is reported. -/
  | fail (message : String)
  /-- Files are given to the engine. -/
  | give (files : Sources)

/-- What the engine is given by a move. -/
def Move.given? : Move → Option Sources
  | give files => some files
  | _ => none

/-- What is said of a target that forms no unit: it failed, unless it merely holds no sources. -/
def Move.ofUnitError : UnitError → Move
  | .noSources place => .note ("skipped=" ++ place ++ " reason=no-sources")
  | error => .fail error.message

/-- Moves in order, and what ends the run after them. -/
structure Script where
  moves : List Move := []
  ending : Option RunFault := none

namespace Script

/-- The script that ends at once. -/
def stop (fault : RunFault) : Script := { ending := some fault }

/-- One script after the other; nothing comes after an ending. -/
def andThen (a b : Script) : Script :=
  match a.ending with
  | some _ => a
  | none => ⟨a.moves ++ b.moves, b.ending⟩

/-- Scripts one after the other. -/
def all : List Script → Script
  | [] => {}
  | script :: rest => script.andThen (all rest)

/-- How a run ends that follows the script to its end. -/
def outcome (script : Script) : Except RunFault Unit :=
  match script.ending with
  | none => .ok ()
  | some fault => .error fault

/-- What the engine is given, batch by batch. -/
def given (script : Script) : List Sources := script.moves.filterMap Move.given?

theorem andThen_of_ending_eq_none {a : Script} (h : a.ending = none) (b : Script) :
    a.andThen b = ⟨a.moves ++ b.moves, b.ending⟩ := by
  rw [andThen, h]

theorem given_andThen {a : Script} (h : a.ending = none) (b : Script) :
    (a.andThen b).given = a.given ++ b.given := by
  rw [andThen_of_ending_eq_none h, given, List.filterMap_append]
  rfl

theorem outcome_eq_ok_iff {script : Script} : script.outcome = .ok () ↔ script.ending = none := by
  unfold outcome
  cases script.ending <;> simp

theorem outcome_eq_error_iff {script : Script} {cause : RunFault} :
    script.outcome = .error cause ↔ script.ending = some cause := by
  unfold outcome
  cases script.ending <;> simp

theorem ending_andThen_eq_none_iff {a b : Script} :
    (a.andThen b).ending = none ↔ a.ending = none ∧ b.ending = none := by
  cases ha : a.ending with
  | none => simp [andThen_of_ending_eq_none ha]
  | some fault => simp [andThen, ha]

/-- Scripts one after the other come to their end when each of them does. -/
theorem ending_all_eq_none_iff {scripts : List Script} :
    (all scripts).ending = none ↔ ∀ script ∈ scripts, script.ending = none := by
  induction scripts with
  | nil => simp [all]
  | cons script rest ih => rw [all, ending_andThen_eq_none_iff, ih, List.forall_mem_cons]

theorem ending_of_andThen {a b : Script} {cause : RunFault}
    (h : (a.andThen b).ending = some cause) :
    a.ending = some cause ∨ b.ending = some cause := by
  -- The second script is followed only if the first has no ending.
  cases ha : a.ending with
  | none =>
    rw [andThen_of_ending_eq_none ha] at h
    exact .inr h
  | some fault =>
    rw [andThen, ha] at h
    exact .inl (ha.symm.trans h)

/-- What ends scripts one after the other ends one of them. -/
theorem exists_ending_of_all {scripts : List Script} {cause : RunFault}
    (h : (all scripts).ending = some cause) : ∃ script ∈ scripts, script.ending = some cause := by
  induction scripts with
  | nil => cases h
  | cons script rest ih =>
    rcases ending_of_andThen h with hfirst | hrest
    · exact ⟨script, List.mem_cons_self, hfirst⟩
    · obtain ⟨later, hlater, hending⟩ := ih hrest
      exact ⟨later, List.mem_cons_of_mem _ hlater, hending⟩

/-- The moves of scripts that come to their end are those of one script after the other. -/
theorem moves_all {scripts : List Script} (h : ∀ script ∈ scripts, script.ending = none) :
    (all scripts).moves = scripts.flatMap moves := by
  induction scripts with
  | nil => rfl
  | cons script rest ih =>
    rw [all, andThen_of_ending_eq_none (h script List.mem_cons_self), List.flatMap_cons,
      ih fun s hs => h s (List.mem_cons_of_mem _ hs)]

theorem given_all {scripts : List Script} (h : ∀ script ∈ scripts, script.ending = none) :
    (all scripts).given = scripts.flatMap given := by
  rw [given, moves_all h, List.filterMap_flatMap]
  rfl

end Script

/-! ## 2. Following a script -/

namespace Reporter

/-- Makes a move. -/
def perform (reporter : Reporter) : Move → Run Unit
  | .note message => Run.record (.noted message)
  | .fail message => Run.record (.failed message)
  | .give files => do
    let _ ← reporter.inspect files

/-- Ends the run if there is something to end it. -/
def finish : Option RunFault → Run Unit
  | none => pure ()
  | some fault => throw fault

/-- Follows a script. -/
def play (reporter : Reporter) (script : Script) : Run Unit := do
  script.moves.forM reporter.perform
  finish script.ending

end Reporter

/-! ## 3. The script of a run -/

namespace Linter

/-- The script of a batch. -/
def scriptOfBatch (disk : Disk) (batch : Batch) : Script :=
  match Reading.ofPaths disk batch.paths with
  | .error fault => .stop (.fault fault)
  | .ok reading =>
    { moves := (reading.failures.map fun f => .fail (Reading.describe f)) ++
        if reading.sources.isEmpty then
          [.note ("unit=" ++ batch.label ++ " skipped=no-readable-files")]
        else [.give reading.sources] }

/-- The script of what a target was resolved to. -/
def scriptOfUnit (disk : Disk) : Except Trouble SourceUnit → Script
  | .error (.fault fault) => .stop (.fault fault)
  | .error (.noUnit error) => { moves := [.ofUnitError error] }
  | .ok unit =>
    let files := unit.files
    if files.isEmpty then {}
    else
      Script.andThen
        { moves := [.note ("unit=" ++ unit.name ++ " dir=" ++ unit.directory ++ " files=" ++
          toString files.length)] }
        (scriptOfBatch disk (.ofPaths unit.name files))

/-- The script of a directory run. -/
def scriptOfDirectories (linter : Linter) (disk : Disk) (targets : List Target) : Script :=
  match expandDirectories disk linter.excludes targets with
  | .error fault => .stop (.fault fault)
  | .ok directories =>
    .all (directories.map fun d => scriptOfUnit disk (Directory.unit disk d))

/-- The script of expanding one argument of a package run. -/
def scriptOfExpansion (linter : Linter) (disk : Disk) (text : String) : Script :=
  match Package.expand disk linter.search linter.excludes text "." with
  | .ok _ => {}
  | .error (.noUnit error) => { moves := [.fail error.message] }
  | .error (.fault fault) => .stop (.fault fault)

/-- The specifiers that one argument stands for, none if it cannot be expanded. -/
def specifiersOf (linter : Linter) (disk : Disk) (text : String) : List String :=
  match Package.expand disk linter.search linter.excludes text "." with
  | .ok specifiers => specifiers
  | .error _ => []

/-- The specifiers that arguments stand for, each once. -/
def specifiers (linter : Linter) (disk : Disk) (texts : List String) : List String :=
  (texts.flatMap (linter.specifiersOf disk)).eraseDups

/-- The script of a package run. All arguments are expanded before the first is linted. -/
def scriptOfPackages (linter : Linter) (disk : Disk) (texts : List String) : Script :=
  (Script.all (texts.map (linter.scriptOfExpansion disk))).andThen
    (.all ((linter.specifiers disk texts).map fun s =>
      scriptOfUnit disk (Package.unit disk linter.search s ".")))

/-- The script of a plan. -/
def scriptOfPlan (linter : Linter) (disk : Disk) (plan : Plan) : Script :=
  match plan.kind with
  | .directory => linter.scriptOfDirectories disk plan.targets
  | .file => scriptOfBatch disk (.ofPaths filesLabel plan.arguments)
  | .package => linter.scriptOfPackages disk plan.arguments

/-- The script of a run. -/
def script (linter : Linter) (disk : Disk) (args : List String) : Script :=
  match Plan.ofArguments disk (if args.isEmpty then ["."] else args) with
  | .error error => .stop (.plan error)
  | .ok plan =>
    Script.andThen
      { moves := [.note ("run kind=" ++ plan.kind.plural ++ " targets=" ++
        toString plan.targets.length)] }
      (linter.scriptOfPlan disk plan)

end Linter

/-! ## 4. A run follows its script -/

namespace Reporter

variable (reporter : Reporter)

@[simp] theorem play_nothing : reporter.play {} = pure () := rfl

@[simp] theorem play_stop (fault : RunFault) : reporter.play (.stop fault) = throw fault := rfl

/-- Moves in two parts are made one part after the other. -/
theorem forM_perform_append (a b : List Move) :
    (a ++ b).forM reporter.perform =
      (a.forM reporter.perform >>= fun _ => b.forM reporter.perform) := by
  induction a with
  | nil => exact (pure_bind _ _).symm
  | cons move a ih =>
    show (reporter.perform move >>= fun _ => (a ++ b).forM reporter.perform) = _
    rw [ih]
    exact (bind_assoc _ _ _).symm

/-- Following a script that comes to its end is making its moves. -/
theorem play_of_ending_eq_none {script : Script} (h : script.ending = none) :
    reporter.play script = script.moves.forM reporter.perform := by
  rw [play, h, finish]
  exact bind_pure_unit

theorem play_andThen (a b : Script) :
    reporter.play (a.andThen b) = (reporter.play a >>= fun _ => reporter.play b) := by
  obtain ⟨moves, ending⟩ := a
  cases ending with
  | none =>
    show ((moves ++ b.moves).forM reporter.perform >>= fun _ => finish b.ending) = _
    rw [forM_perform_append]
    simp only [play, finish, bind_assoc, pure_bind]
  | some fault =>
    -- The first script throws, and what is thrown skips the second.
    simp only [play, Script.andThen, finish, bind_assoc, Run.throw_bind]

theorem play_all (scripts : List Script) :
    reporter.play (.all scripts) = scripts.forM reporter.play := by
  induction scripts with
  | nil => rfl
  | cons script rest ih =>
    rw [Script.all, play_andThen, ih]
    rfl

theorem play_move (move : Move) : reporter.play { moves := [move] } = reporter.perform move := by
  show ((reporter.perform move >>= fun _ => pure ()) >>= fun _ => pure ()) = _
  rw [bind_pure_unit, bind_pure_unit]

end Reporter

namespace Linter

theorem forM_fail (reporter : Reporter) (failures : List (String × AccessError)) :
    (failures.map fun f => Move.fail (Reading.describe f)).forM reporter.perform =
      failures.forM fun f => Run.record (.failed (Reading.describe f)) := by
  induction failures with
  | nil => rfl
  | cons f rest ih =>
    show (Run.record _ >>= fun _ => (rest.map _).forM reporter.perform) = _
    rw [ih]
    rfl

theorem lint_eq_play (reporter : Reporter) (disk : Disk) (batch : Batch) :
    (do let _ ← reporter.lint disk batch) = reporter.play (scriptOfBatch disk batch) := by
  unfold Reporter.lint scriptOfBatch
  cases Reading.ofPaths disk batch.paths with
  | error fault => exact Run.throw_bind _ _
  | ok reading =>
    simp only [Reporter.play, Reporter.forM_perform_append, forM_fail, Reporter.finish]
    by_cases hnone : reading.sources.isEmpty = true
    · rw [if_pos hnone, if_pos hnone]
      simp only [bind_assoc, pure_bind, List.forM, bind_pure_unit, Reporter.perform]
    · rw [if_neg hnone, if_neg hnone]
      simp only [bind_assoc, pure_bind, List.forM, Reporter.perform]

theorem lintUnit_eq_play (linter : Linter) (disk : Disk) (resolved : Except Trouble SourceUnit) :
    linter.lintUnit disk resolved = linter.reporter.play (scriptOfUnit disk resolved) := by
  rcases resolved with (error | fault) | unit
  · rw [scriptOfUnit, Reporter.play_move]
    cases error <;> rfl
  · rfl
  · simp only [lintUnit, scriptOfUnit]
    by_cases hnone : unit.files.isEmpty = true
    · rw [if_pos hnone, if_pos hnone, Reporter.play_nothing]
    · rw [if_neg hnone, if_neg hnone, Reporter.play_andThen, Reporter.play_move, ← lint_eq_play]
      rfl

theorem packagesOf_eq (linter : Linter) (disk : Disk) (text : String) :
    linter.packagesOf disk text = (do
      linter.reporter.play (linter.scriptOfExpansion disk text)
      return linter.specifiersOf disk text) := by
  unfold packagesOf scriptOfExpansion specifiersOf
  cases Package.expand disk linter.search linter.excludes text "." with
  | ok specifiers => rfl
  | error trouble =>
    cases trouble with
    | noUnit error => rw [Reporter.play_move]; rfl
    | fault fault => exact (Run.throw_bind _ _).symm

theorem expandPackages_eq (linter : Linter) (disk : Disk) (texts : List String) :
    linter.expandPackages disk texts = (do
      linter.reporter.play (.all (texts.map (linter.scriptOfExpansion disk)))
      return linter.specifiers disk texts) := by
  have expanded : texts.mapM (linter.packagesOf disk) = (do
      linter.reporter.play (.all (texts.map (linter.scriptOfExpansion disk)))
      return texts.map (linter.specifiersOf disk)) := by
    induction texts with
    | nil => rfl
    | cons text texts ih =>
      rw [List.mapM_cons, ih, packagesOf_eq, List.map_cons, Script.all, Reporter.play_andThen]
      simp only [bind_assoc, pure_bind, List.map_cons]
  rw [expandPackages, expanded]
  simp only [bind_assoc, pure_bind, specifiers, List.flatMap]

/-- Linting one thing after the other is following their scripts one after the other. -/
theorem forM_lintUnit_eq_play {ι : Type} (linter : Linter) (disk : Disk)
    (resolve : ι → Except Trouble SourceUnit) (items : List ι) :
    (items.forM fun i => linter.lintUnit disk (resolve i)) =
      linter.reporter.play (.all (items.map fun i => scriptOfUnit disk (resolve i))) := by
  rw [Reporter.play_all]
  induction items with
  | nil => rfl
  | cons i items ih =>
    show (linter.lintUnit disk (resolve i) >>= fun _ => _) = _
    rw [lintUnit_eq_play, ih]
    rfl

theorem lintPlan_eq_play (linter : Linter) (disk : Disk) (plan : Plan) :
    linter.lintPlan disk plan = linter.reporter.play (linter.scriptOfPlan disk plan) := by
  unfold lintPlan scriptOfPlan
  cases plan.kind with
  | directory =>
    simp only [lintDirectories, scriptOfDirectories]
    cases expandDirectories disk linter.excludes plan.targets with
    | error fault => rfl
    | ok directories => exact linter.forM_lintUnit_eq_play disk (Directory.unit disk) directories
  | file => exact lint_eq_play _ _ _
  | package =>
    simp only [lintPackages, scriptOfPackages]
    rw [expandPackages_eq, Reporter.play_andThen, bind_assoc, ← forM_lintUnit_eq_play]
    simp only [pure_bind]

/-- A run follows its script. -/
theorem run_eq_play (linter : Linter) (disk : Disk) (args : List String) :
    linter.run disk args = linter.reporter.play (linter.script disk args) := by
  unfold run script
  cases Plan.ofArguments disk (if args.isEmpty then ["."] else args) with
  | error error => rfl
  | ok plan =>
    simp only [Reporter.play_andThen, Reporter.play_move, ← lintPlan_eq_play]
    rfl

end Linter

end LintFront
