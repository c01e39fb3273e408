import LintFront.Proofs.Run.Inspection
/-!
# What can end a run

Three things end a run before its end: the targets do not form a plan, the disk or the search for a
package does not permit what a move asks for, or the engine crashes. They are kept apart by where
they come from. The first is found out before anything is done, and from a plan it does not come any
more; the second is written into the script; only the third is not known beforehand.

## Main statements

`Script.FaultsOnly`: a script over a plan is cut short by faults alone.
`Linter.run_of_plan_eq_error` and `Linter.run_ne_plan`: targets that form no plan end the run at
once, and nothing else ends it in this way.
-/

namespace LintFront

/-! ## 1. What scripts are cut short by -/

namespace Script

/-- What cuts the script short, if anything does, is a fault. -/
def FaultsOnly (script : Script) : Prop :=
  ∀ cause, script.ending = some cause → ∃ fault, cause = .fault fault

theorem faultsOnly_of_ending_eq_none {script : Script} (h : script.ending = none) :
    script.FaultsOnly := by
  intro cause hcause
  rw [h] at hcause
  cases hcause

theorem faultsOnly_stop (fault : Fault) : (stop (.fault fault)).FaultsOnly := by
  intro cause hcause
  exact ⟨fault, (Option.some.inj hcause).symm⟩

theorem FaultsOnly.andThen {a b : Script} (ha : a.FaultsOnly) (hb : b.FaultsOnly) :
    (a.andThen b).FaultsOnly := by
  intro cause hcause
  rcases ending_of_andThen hcause with hfirst | hsecond
  · exact ha cause hfirst
  · exact hb cause hsecond

theorem FaultsOnly.all {scripts : List Script} (h : ∀ script ∈ scripts, script.FaultsOnly) :
    (all scripts).FaultsOnly := by
  intro cause hcause
  obtain ⟨script, hscript, hending⟩ := exists_ending_of_all hcause
  exact h script hscript cause hending

end Script

namespace Linter

variable {disk : Disk}

theorem faultsOnly_scriptOfBatch (disk : Disk) (batch : Batch) :
    (scriptOfBatch disk batch).FaultsOnly := by
  unfold scriptOfBatch
  cases Reading.ofPaths disk batch.paths with
  | error fault => exact Script.faultsOnly_stop fault
  | ok reading => exact Script.faultsOnly_of_ending_eq_none rfl

theorem faultsOnly_scriptOfUnit (disk : Disk) (resolved : Except Trouble SourceUnit) :
    (scriptOfUnit disk resolved).FaultsOnly := by
  -- A target without a unit is reported, and the run goes on; only a fault cuts it short.
  rcases resolved with (error | fault) | unit
  · exact Script.faultsOnly_of_ending_eq_none rfl
  · exact Script.faultsOnly_stop fault
  · rw [scriptOfUnit]
    split
    · exact Script.faultsOnly_of_ending_eq_none rfl
    · exact (Script.faultsOnly_of_ending_eq_none rfl).andThen (faultsOnly_scriptOfBatch _ _)

theorem faultsOnly_all_scriptOfUnit {ι : Type} (disk : Disk)
    (resolve : ι → Except Trouble SourceUnit) (items : List ι) :
    (Script.all (items.map fun i => scriptOfUnit disk (resolve i))).FaultsOnly := by
  apply Script.FaultsOnly.all
  intro script hscript
  obtain ⟨i, -, rfl⟩ := List.mem_map.1 hscript
  exact faultsOnly_scriptOfUnit disk (resolve i)

theorem faultsOnly_scriptOfExpansion (linter : Linter) (disk : Disk) (arg : String) :
    (linter.scriptOfExpansion disk arg).FaultsOnly := by
  unfold scriptOfExpansion
  rcases Package.expand disk linter.search linter.excludes arg "." with (error | fault) | texts
  · exact Script.faultsOnly_of_ending_eq_none rfl
  · exact Script.faultsOnly_stop fault
  · exact Script.faultsOnly_of_ending_eq_none rfl

theorem faultsOnly_scriptOfPlan (linter : Linter) (disk : Disk) (plan : Plan) :
    (linter.scriptOfPlan disk plan).FaultsOnly := by
  unfold scriptOfPlan
  cases plan.kind with
  | directory =>
    dsimp only
    unfold scriptOfDirectories
    cases expandDirectories disk linter.excludes plan.targets with
    | error fault => exact Script.faultsOnly_stop fault
    | ok directories => exact faultsOnly_all_scriptOfUnit disk _ directories
  | file => exact faultsOnly_scriptOfBatch disk _
  | package =>
    apply Script.FaultsOnly.andThen
    · apply Script.FaultsOnly.all
      intro script hscript
      obtain ⟨arg, -, rfl⟩ := List.mem_map.1 hscript
      exact linter.faultsOnly_scriptOfExpansion disk arg
    · exact faultsOnly_all_scriptOfUnit disk _ _

/-! ## 2. Targets that form no plan -/

/-- Targets that form no plan end the run before anything is done. -/
theorem run_of_plan_eq_error (linter : Linter) {args : List String} {error : PlanError}
    (h : Plan.ofArguments disk (if args.isEmpty then ["."] else args) = .error error)
    (journal : Journal) :
    (linter.run disk args).runOn journal = (.error (.plan error), journal) := by
  rw [run, h]
  rfl

/-- A run over a plan is not ended by its targets. -/
theorem run_ne_plan (linter : Linter) {args : List String} {plan : Plan}
    (h : Plan.ofArguments disk (if args.isEmpty then ["."] else args) = .ok plan)
    (journal : Journal) (error : PlanError) :
    ((linter.run disk args).runOn journal).1 ≠ .error (.plan error) := by
  intro hplan
  -- The targets form a plan, so they are no ending of the script.
  have hscript : (linter.script disk args).FaultsOnly := by
    rw [script, h]
    apply Script.FaultsOnly.andThen
    · exact Script.faultsOnly_of_ending_eq_none rfl
    · exact linter.faultsOnly_scriptOfPlan disk plan
  rw [run_eq_play] at hplan
  rcases linter.reporter.play_ends (linter.script disk args) journal with
    ⟨later, hlater, -⟩ | ⟨message, later, hlater, -⟩
  · rw [hlater] at hplan
    obtain ⟨fault, hfault⟩ := hscript _ (Script.outcome_eq_error_iff.1 hplan)
    cases hfault
  · rw [hlater] at hplan
    cases hplan

end Linter

end LintFront
