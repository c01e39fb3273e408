import LintFront.Console.Output
import LintFront.Proofs.Run.Inspection
/-!
# The accounts of a reporter

A reporter keeps two counters, the engine keeps being asked, and lines are written. These are three
things that are brought forward in different places, and a run may be cut off between any two of
them: by a batch of which nothing can be read, by a refusal, by a crash of the engine after the unit
was counted, or by targets that do not go together. The accounts nevertheless agree whenever a call
of the reporter or a run has come to its end, well or badly.

A `Session` is what can happen to one reporter. Between its steps the disk and the working directory
may change in any way, and so may the search path and the excludes; each step therefore brings its
own.

## Main statements

`Reporter.session_accounts`: after every session the tally, the output and the calls of the engine
agree, and a step never takes anything back.
-/

namespace LintFront

/-! ## 1. What the accounts have to say -/

namespace Reporter

/-- The findings that have to be printed for calls in order; `turn` calls were made before. -/
def due (reporter : Reporter) (turn : Nat) : List Call → List Finding
  | [] => []
  | call :: rest =>
    reporter.shown (call.engine.inspect turn call.files call.rules) ++ reporter.due (turn + 1) rest

theorem due_append (reporter : Reporter) (turn : Nat) (a b : List Call) :
    reporter.due turn (a ++ b) = reporter.due turn a ++ reporter.due (turn + a.length) b := by
  induction a generalizing turn with
  | nil => simp [due]
  | cons call a ih =>
    rw [List.cons_append, due, due, ih, List.append_assoc, List.length_cons]
    congr 3
    omega

/-- The tally, the findings and the calls of a journal agree with each other. -/
structure Balanced (reporter : Reporter) (journal : Journal) : Prop where
  units : journal.tally.units = journal.calls.length
  suggestions : journal.tally.suggestions = journal.findings.length
  findings : journal.findings = reporter.due 0 journal.calls
  /-- Every call is made by the reporter, with its engine and its rules. -/
  calls : ∀ call ∈ journal.calls, call = reporter.callOn call.files

/-- A journal in which nothing has happened is balanced. -/
theorem balanced_start (reporter : Reporter) : reporter.Balanced {} :=
  ⟨rfl, rfl, rfl, by simp [Journal.calls]⟩

end Reporter

/-- An event that is neither a call nor a finding. -/
def Event.IsQuiet (event : Event) : Prop := event.call? = none ∧ event.finding? = none

/-! ## 2. What one batch does to them -/

namespace Reporter

variable {reporter : Reporter}

theorem Balanced.record {journal : Journal} (h : reporter.Balanced journal) {event : Event}
    (quiet : event.IsQuiet) :
    reporter.Balanced { journal with events := journal.events ++ [event] } := by
  -- Neither list of the accounts sees the event, so all four entries are those of `journal`.
  have hcalls : (journal.events ++ [event]).filterMap Event.call? = journal.calls := by
    rw [List.filterMap_append, List.filterMap_cons, quiet.1]
    exact List.append_nil _
  have hfindings : (journal.events ++ [event]).filterMap Event.finding? = journal.findings := by
    rw [List.filterMap_append, List.filterMap_cons, quiet.2]
    exact List.append_nil _
  constructor
  · exact h.units.trans (congrArg _ hcalls.symm)
  · exact h.suggestions.trans (congrArg _ hfindings.symm)
  · show _ = reporter.due 0 ((journal.events ++ [event]).filterMap Event.call?)
    rw [hcalls, ← h.findings]
    exact hfindings
  · intro call hcall
    exact h.calls call (hcalls ▸ hcall)

theorem findings_inspect (reporter : Reporter) (files : Sources) (journal : Journal) :
    ((reporter.inspect files).runOn journal).2.findings =
      journal.findings ++ reporter.shown (reporter.verdictOn journal files) := by
  rw [runOn_inspect]
  simp only [Journal.findings, List.filterMap_append, List.filterMap_cons, Event.finding?,
    findings_aftermath]

/-- A batch adds one unit and one call, and as many findings to the tally as to the output, also
when the engine refuses the batch or crashes on it. -/
theorem keeps_inspect (files : Sources) : Run.Keeps reporter.Balanced (reporter.inspect files) := by
  intro journal h
  have hcalls := calls_inspect reporter files journal
  have hfindings := findings_inspect reporter files journal
  constructor
  · rw [hcalls, List.length_append, ← h.units, runOn_inspect]
    rfl
  · rw [hfindings, List.length_append, ← h.suggestions, runOn_inspect]
  · rw [hfindings, hcalls, due_append, ← h.findings, Nat.zero_add, ← h.units]
    simp only [due, List.append_nil]
    rfl
  · rw [hcalls]
    intro call hcall
    rcases List.mem_append.1 hcall with hold | hnew
    · exact h.calls call hold
    · rw [List.mem_singleton.1 hnew]
      rfl

/-! ## 3. What a whole script does to them -/

/-- A property of journals that a batch and every quiet event keep is kept by every script. -/
theorem keeps_play {inv : Journal → Prop}
    (hquiet : ∀ event journal, event.IsQuiet → inv journal →
      inv { journal with events := journal.events ++ [event] })
    (hgive : ∀ files, Run.Keeps inv (reporter.inspect files)) (script : Script) :
    Run.Keeps inv (reporter.play script) := by
  apply Run.Keeps.bind
  · apply Run.Keeps.forM
    intro move _
    cases move with
    | note message => exact fun journal h => hquiet _ journal ⟨rfl, rfl⟩ h
    | fail message => exact fun journal h => hquiet _ journal ⟨rfl, rfl⟩ h
    | give files => exact Run.Keeps.bind (hgive files) fun _ => Run.Keeps.pure ()
  · intro _
    cases script.ending with
    | none => exact Run.Keeps.pure ()
    | some fault => exact Run.Keeps.throw fault

/-- What a batch does to a journal is what its script does, the number that it hands back aside. -/
theorem snd_lint (disk : Disk) (batch : Batch) (journal : Journal) :
    ((reporter.lint disk batch).runOn journal).2 =
      ((reporter.play (Linter.scriptOfBatch disk batch)).runOn journal).2 := by
  rw [← Linter.lint_eq_play, Run.runOn_bind]
  rcases (reporter.lint disk batch).runOn journal with ⟨_ | _, _⟩ <;> rfl

theorem runOn_forM_failures (failures : List (String × AccessError)) (journal : Journal) :
    (failures.forM fun f => Run.record (.failed (Reading.describe f))).runOn journal =
      (.ok (), { journal with
        events := journal.events ++ failures.map fun f => .failed (Reading.describe f) }) := by
  induction failures generalizing journal with
  | nil => simp [List.forM]
  | cons f rest ih =>
    show (Run.record _ >>= fun _ => rest.forM _).runOn journal = _
    rw [Run.runOn_bind, Run.runOn_record]
    simp only [ih, List.map_cons, List.append_assoc, List.singleton_append]

/-- The number that comes back for a batch is what the batch adds to the suggestions. -/
theorem suggestions_lint {disk : Disk} {batch : Batch} {journal later : Journal} {n : Nat}
    (h : (reporter.lint disk batch).runOn journal = (.ok n, later)) :
    later.tally.suggestions = journal.tally.suggestions + n := by
  unfold lint at h
  cases hreading : Reading.ofPaths disk batch.paths with
  | error fault =>
    rw [hreading] at h
    cases h
  | ok reading =>
    simp only [hreading, Run.runOn_bind, runOn_forM_failures] at h
    by_cases hnone : reading.sources.isEmpty = true
    · rw [if_pos hnone, Run.runOn_bind, Run.runOn_record] at h
      cases h
      rfl
    · rw [if_neg hnone, runOn_inspect] at h
      obtain ⟨hanswer, rfl⟩ := Prod.ext_iff.1 h
      -- Only a verdict that is no crash hands a number back.
      generalize reporter.verdictOn _ _ = verdict at hanswer
      cases verdict with
      | findings found =>
        cases hanswer
        rfl
      | refused message =>
        cases hanswer
        rfl
      | crashed message => cases hanswer

/-! ## 4. Sessions -/

/-- Something that happens to a reporter, on the disk as it is then. -/
inductive Step where
  /-- The reporter lints a batch. -/
  | lint (disk : Disk) (batch : Batch)
  /-- A run over arguments makes use of the reporter. -/
  | run (disk : Disk) (search excludes args : List String)

/-- The journal after a step, however the step ended. -/
def afterStep (reporter : Reporter) (journal : Journal) : Step → Journal
  | .lint disk batch => ((reporter.lint disk batch).runOn journal).2
  | .run disk search excludes args =>
    ((Linter.run ⟨search, excludes, reporter⟩ disk args).runOn journal).2

/-- The journal after the steps of a session. -/
def afterSession (reporter : Reporter) (steps : List Step) : Journal :=
  steps.foldl reporter.afterStep {}

/-- A step keeps what every script keeps. -/
theorem afterStep_of_keeps {inv : Journal → Prop}
    (hplay : ∀ script, Run.Keeps inv (reporter.play script)) {journal : Journal}
    (h : inv journal) (step : Step) : inv (reporter.afterStep journal step) := by
  cases step with
  | lint disk batch =>
    rw [afterStep, snd_lint]
    exact hplay _ journal h
  | run disk search excludes args =>
    rw [afterStep, Linter.run_eq_play]
    exact hplay _ journal h

/-- The accounts that hold before a script hold after it. -/
theorem keeps_balanced (reporter : Reporter) (script : Script) :
    Run.Keeps reporter.Balanced (reporter.play script) :=
  keeps_play (fun _ _ quiet h => h.record quiet) keeps_inspect script

theorem balanced_afterStep {journal : Journal} (h : reporter.Balanced journal) (step : Step) :
    reporter.Balanced (reporter.afterStep journal step) :=
  afterStep_of_keeps reporter.keeps_balanced h step

theorem balanced_foldl {journal : Journal} (h : reporter.Balanced journal) (steps : List Step) :
    reporter.Balanced (steps.foldl reporter.afterStep journal) := by
  induction steps generalizing journal with
  | nil => exact h
  | cons step steps ih => exact ih (balanced_afterStep h step)

theorem balanced_afterSession (reporter : Reporter) (steps : List Step) :
    reporter.Balanced (reporter.afterSession steps) :=
  balanced_foldl reporter.balanced_start steps

/-- No step takes a unit or a finding back. -/
theorem tally_le_afterStep (journal : Journal) (step : Step) :
    journal.tally.units ≤ (reporter.afterStep journal step).tally.units ∧
      journal.tally.suggestions ≤ (reporter.afterStep journal step).tally.suggestions := by
  have hkeeps : ∀ script, Run.Keeps (fun later => journal.tally.units ≤ later.tally.units ∧
      journal.tally.suggestions ≤ later.tally.suggestions) (reporter.play script) := by
    refine keeps_play (fun _ _ _ h => h) ?_
    intro files later h
    rw [runOn_inspect]
    exact ⟨by simp only; omega, by simp only; omega⟩
  exact afterStep_of_keeps hkeeps ⟨Nat.le_refl _, Nat.le_refl _⟩ step

end Reporter

/-! ## 5. What is written -/

/-- On the standard output nothing is written but findings, each by itself and in order. -/
theorem Console.out_transcript (console : Console) (events : List Event) :
    (console.transcript events).out =
      String.join ((events.filterMap Event.finding?).map fun f => console.echoed f.render) := by
  induction events with
  | nil => rfl
  | cons event events ih =>
    rw [transcript, Output.append_out, ih]
    cases event <;> simp [written, Event.finding?, List.filterMap_cons]

/-- After every session of a reporter the units of the tally are the calls made, its suggestions are
the findings printed, and the standard output holds the findings of the verdicts that are sure
enough, call by call and in the order of the engine. What a batch hands back is what it added, and
nothing is ever taken back. -/
theorem Reporter.session_accounts (reporter : Reporter) (console : Console) (steps : List Step) :
    let journal := reporter.afterSession steps
    journal.tally.units = journal.calls.length ∧
    journal.tally.suggestions = journal.findings.length ∧
    journal.findings = reporter.due 0 journal.calls ∧
    (∀ call ∈ journal.calls, call = reporter.callOn call.files) ∧
    (console.transcript journal.events).out =
      String.join ((reporter.due 0 journal.calls).map fun f => console.echoed f.render) ∧
    (∀ disk batch n later, (reporter.lint disk batch).runOn journal = (.ok n, later) →
      later.tally.suggestions = journal.tally.suggestions + n) ∧
    (∀ step, journal.tally.units ≤ (reporter.afterSession (steps ++ [step])).tally.units ∧
      journal.tally.suggestions ≤
        (reporter.afterSession (steps ++ [step])).tally.suggestions) := by
  intro journal
  have balanced := reporter.balanced_afterSession steps
  refine ⟨balanced.units, balanced.suggestions, balanced.findings, balanced.calls, ?_,
    fun _ _ _ _ h => suggestions_lint h, ?_⟩
  · rw [Console.out_transcript, ← balanced.findings]
    rfl
  · intro step
    rw [afterSession, List.foldl_append]
    exact tally_le_afterStep journal step

end LintFront
