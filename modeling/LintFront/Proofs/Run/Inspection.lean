import LintFront.Proofs.Run.Script
/-!
# Asking the engine

Giving one batch to the engine adds one unit to the tally, one call to the journal, and as many
findings to both as the verdict has that are sure enough. Everything about a verdict that a run
makes use of is here a function of the verdict: what is `shown` of it, what `aftermath` it has among
the events, and with what `answer` it leaves the run.

Only an engine that crashes keeps a script from being followed to its end. An engine that keeps its
promise does not crash, so it is given exactly the batches of the script, and the run ends as the
script says.

## Main statements

`Reporter.runOn_inspect`: all that one batch does to a journal. `Reporter.play_ends`: how a script
ends with an engine that may crash. `Reporter.fst_play`, `Reporter.calls_play`: how it ends and what
it gives to an engine that keeps its promise.
-/

namespace LintFront

namespace Reporter

/-! ## 1. What is made of a verdict -/

/-- The findings of a verdict that are printed. -/
def shown (reporter : Reporter) : Verdict → List Finding
  | .findings found => found.filter fun f => f.meets reporter.minConfidence
  | _ => []

/-- The events that follow on a verdict. -/
def aftermath (reporter : Reporter) : Verdict → List Event
  | .refused message => [.failed message]
  | verdict => (reporter.shown verdict).map .printed

/-- How a verdict leaves the run: with the number of findings printed, or ended by a crash. -/
def answer (reporter : Reporter) : Verdict → Except RunFault Nat
  | .crashed message => .error (.crash message)
  | verdict => .ok (reporter.shown verdict).length

/-- The verdict on files, asked for when the journal is as it is. -/
def verdictOn (reporter : Reporter) (journal : Journal) (files : Sources) : Verdict :=
  reporter.engine.inspect journal.tally.units files reporter.rules

/-! ## 2. One batch -/

theorem runOn_forM_print (found : List Finding) (journal : Journal) :
    (found.forM print).runOn journal =
      (.ok (), { tally := { journal.tally with
                    suggestions := journal.tally.suggestions + found.length }
                 events := journal.events ++ found.map .printed }) := by
  induction found generalizing journal with
  | nil => simp [List.forM]
  | cons finding found ih =>
    show (print finding >>= fun _ => found.forM print).runOn journal = _
    have once : (print finding).runOn journal =
        (.ok (), { tally := { journal.tally with suggestions := journal.tally.suggestions + 1 }
                   events := journal.events ++ [.printed finding] }) := rfl
    rw [Run.runOn_bind, once]
    -- The first finding goes into the journal with which the rest is printed.
    simp only [ih, List.length_cons, List.map_cons, List.append_assoc, List.singleton_append]
    congr 3
    omega

/-- All that one batch does to a journal. -/
theorem runOn_inspect (reporter : Reporter) (files : Sources) (journal : Journal) :
    (reporter.inspect files).runOn journal =
      (reporter.answer (reporter.verdictOn journal files),
        { tally := {
            units := journal.tally.units + 1
            suggestions := journal.tally.suggestions +
              (reporter.shown (reporter.verdictOn journal files)).length }
          events := journal.events ++ .inspected reporter.engine files reporter.rules ::
            reporter.aftermath (reporter.verdictOn journal files) }) := by
  unfold inspect verdictOn
  simp only [Run.runOn_bind, Run.runOn_get, Run.runOn_countUnit, Run.runOn_record]
  cases reporter.engine.inspect journal.tally.units files reporter.rules with
  | findings found =>
    simp only [printAll, Run.runOn_bind, runOn_forM_print, Run.runOn_pure, answer, shown, aftermath,
      List.append_assoc, List.singleton_append]
  | refused message =>
    simp only [Run.runOn_bind, Run.runOn_record, Run.runOn_pure, answer, shown, aftermath,
      List.append_assoc, List.singleton_append, List.length_nil, Nat.add_zero]
  | crashed message => simp [answer, shown, aftermath]

/-- What is printed after a verdict is what is shown of it. -/
theorem findings_aftermath (reporter : Reporter) (verdict : Verdict) :
    (reporter.aftermath verdict).filterMap Event.finding? = reporter.shown verdict := by
  have printed (found : List Finding) :
      (found.map Event.printed).filterMap Event.finding? = found := by
    induction found with
    | nil => rfl
    | cons f found ih => simp [Event.finding?, ih]
  cases verdict with
  | findings found => exact printed _
  | refused message => rfl
  | crashed message => rfl

/-- After a verdict the engine is not asked again. -/
theorem calls_aftermath (reporter : Reporter) (verdict : Verdict) :
    (reporter.aftermath verdict).filterMap Event.call? = [] := by
  cases verdict <;> simp [aftermath, shown, Event.call?]

/-- The call by which the engine is given files. -/
def callOn (reporter : Reporter) (files : Sources) : Call :=
  ⟨reporter.engine, files, reporter.rules⟩

theorem calls_inspect (reporter : Reporter) (files : Sources) (journal : Journal) :
    ((reporter.inspect files).runOn journal).2.calls =
      journal.calls ++ [reporter.callOn files] := by
  rw [runOn_inspect]
  simp only [Journal.calls, List.filterMap_append, List.filterMap_cons, Event.call?,
    calls_aftermath, callOn]

/-! ## 3. Following a script -/

/-- A move is made and asks the engine for what it gives, or the engine crashes. -/
theorem perform_ends (reporter : Reporter) (move : Move) (journal : Journal) :
    (∃ later, (reporter.perform move).runOn journal = (.ok (), later) ∧
      later.calls = journal.calls ++ move.given?.toList.map reporter.callOn) ∨
    ∃ message later, (reporter.perform move).runOn journal = (.error (.crash message), later) ∧
      ¬reporter.engine.IsFaithful := by
  cases move with
  | note message => exact .inl ⟨_, rfl, by simp [Journal.calls, Event.call?, Move.given?]⟩
  | fail message => exact .inl ⟨_, rfl, by simp [Journal.calls, Event.call?, Move.given?]⟩
  | give files =>
    have hbind : (reporter.perform (.give files)).runOn journal =
        (reporter.inspect files >>= fun _ => pure ()).runOn journal := rfl
    have hcalls := reporter.calls_inspect files journal
    rw [hbind, Run.runOn_bind]
    rw [runOn_inspect] at hcalls ⊢
    -- A refusal is reported and counts as made; of the three verdicts only a crash is thrown.
    cases hverdict : reporter.verdictOn journal files with
    | findings found => exact .inl ⟨_, rfl, hverdict ▸ hcalls⟩
    | refused message => exact .inl ⟨_, rfl, hverdict ▸ hcalls⟩
    | crashed message =>
      exact .inr ⟨message, _, rfl, fun faithful => faithful _ _ _ _ hverdict⟩

theorem forM_perform_ends (reporter : Reporter) (moves : List Move) (journal : Journal) :
    (∃ later, (moves.forM reporter.perform).runOn journal = (.ok (), later) ∧
      later.calls = journal.calls ++ (moves.filterMap Move.given?).map reporter.callOn) ∨
    ∃ message later,
      (moves.forM reporter.perform).runOn journal = (.error (.crash message), later) ∧
      ¬reporter.engine.IsFaithful := by
  induction moves generalizing journal with
  | nil => exact .inl ⟨journal, rfl, by simp⟩
  | cons move moves ih =>
    have hbind : ((move :: moves).forM reporter.perform).runOn journal =
        (reporter.perform move >>= fun _ => moves.forM reporter.perform).runOn journal := rfl
    rcases reporter.perform_ends move journal with
      ⟨next, hnext, hcalls⟩ | ⟨message, next, hnext, hcrashes⟩
    · rw [hbind, Run.runOn_bind, hnext]
      rcases ih next with ⟨later, hlater, hrest⟩ | hcrash
      · refine .inl ⟨later, hlater, ?_⟩
        rw [hrest, hcalls, List.append_assoc, ← List.map_append]
        -- A message gives nothing, so the calls grow only where files are given.
        cases hgiven : move.given? <;> simp [hgiven]
      · exact .inr hcrash
    · rw [hbind, Run.runOn_bind, hnext]
      exact .inr ⟨message, next, rfl, hcrashes⟩

/-- A script is followed to the end that it has, and the engine is given its batches in order, or
the engine breaks its promise and crashes. -/
theorem play_ends (reporter : Reporter) (script : Script) (journal : Journal) :
    (∃ later, (reporter.play script).runOn journal = (script.outcome, later) ∧
      later.calls = journal.calls ++ script.given.map reporter.callOn) ∨
    ∃ message later, (reporter.play script).runOn journal = (.error (.crash message), later) ∧
      ¬reporter.engine.IsFaithful := by
  rcases reporter.forM_perform_ends script.moves journal with
    ⟨later, hlater, hcalls⟩ | ⟨message, later, hlater, hcrashes⟩
  · refine .inl ⟨later, ?_, hcalls⟩
    rw [play, Run.runOn_bind, hlater]
    unfold Script.outcome
    cases script.ending <;> rfl
  · refine .inr ⟨message, later, ?_, hcrashes⟩
    rw [play, Run.runOn_bind, hlater]

section Faithful

variable {reporter : Reporter} (faithful : reporter.engine.IsFaithful)

include faithful

theorem play_of_isFaithful (script : Script) (journal : Journal) :
    ∃ later, (reporter.play script).runOn journal = (script.outcome, later) ∧
      later.calls = journal.calls ++ script.given.map reporter.callOn := by
  rcases reporter.play_ends script journal with hends | ⟨message, later, -, hcrashes⟩
  · exact hends
  · exact absurd faithful hcrashes

/-- With a faithful engine a run ends as its script says. -/
theorem fst_play (script : Script) (journal : Journal) :
    ((reporter.play script).runOn journal).1 = script.outcome := by
  obtain ⟨later, hlater, -⟩ := play_of_isFaithful faithful script journal
  rw [hlater]

/-- A faithful engine is given the batches of the script, in order. -/
theorem calls_play (script : Script) (journal : Journal) :
    ((reporter.play script).runOn journal).2.calls =
      journal.calls ++ script.given.map reporter.callOn := by
  obtain ⟨later, hlater, hcalls⟩ := play_of_isFaithful faithful script journal
  rw [hlater, hcalls]

end Faithful

end Reporter

/-- A linter whose engine has nothing to say. -/
def Linter.quiet : Linter where
  reporter :=
    { engine := { name := "quiet", inspect := fun _ _ _ => .findings [] }
      rules := .everything
      minConfidence := .integer 0 }

theorem Linter.isFaithful_quiet : quiet.reporter.engine.IsFaithful := by
  intro turn files rules message h
  cases h

end LintFront
