import LintFront.Proofs.CommandLine.Status
import LintFront.Proofs.Run.Insertion
/-!
# Runs with a stricter threshold

The threshold is looked at in one place, after the engine has answered, and what is decided there is
only whether a finding is printed. So of two runs that differ in the threshold the stricter one
leaves the events of the other, less some of the findings. This is shown for the trace of any moves,
move by move; that a crash of the engine ends both traces at the same move is part of it, since both
engines are asked the same at the same turn.

Two thresholds are compared as numbers, and not by what they let through. A threshold may be an
integer or a double, and a comparison of the two is exact.

## Main statements

`Reporter.traceFrom_withBound`: the trace of a stricter reporter. `Linter.run_stricter`: what
raising the threshold does to a run.
-/

namespace LintFront

/-! ## 1. Comparing thresholds -/

namespace Number

/-- The bound in grains, of which an integer of any size has a whole number. -/
def inGrains : Number → Double
  | real x => x
  | integer i => .finite (i < 0) (i.natAbs * Double.grainsPerOne)

/-- Is a bound at most another one? Integers are compared exactly, not after rounding. -/
def le (bound bound' : Number) : Bool := bound.inGrains.le bound'.inGrains

theorem signedGrains_inGrains (i : Int) :
    Double.signedGrains (i < 0) (i.natAbs * Double.grainsPerOne) = i * Double.grainsPerOne := by
  unfold Double.signedGrains
  by_cases hneg : i < 0
  · have habs : (i.natAbs : Int) = -i := by omega
    rw [if_pos (decide_eq_true hneg), Int.natCast_mul, habs, Int.neg_mul, Int.neg_neg]
  · have habs : (i.natAbs : Int) = i := by omega
    rw [if_neg (by simpa using hneg), Int.natCast_mul, habs]

theorem atMost_eq (bound : Number) (x : Double) : bound.atMost x = bound.inGrains.le x := by
  cases bound with
  | real b => rfl
  | integer i =>
    cases x with
    | nan => rfl
    | infinity negative => cases negative <;> rfl
    | finite s m => simp only [atMost, inGrains, Double.le, signedGrains_inGrains]

/-- What a bound lets through, a smaller one lets through as well. -/
theorem atMost_of_le {bound bound' : Number} {x : Double} (h : bound.le bound' = true)
    (hx : bound'.atMost x = true) : bound.atMost x = true := by
  rw [atMost_eq] at hx ⊢
  exact Double.le_trans h hx

end Number

/-- Is the event anything but the printing of a finding that is less sure than the bound? -/
def Event.passes (bound : Number) : Event → Bool
  | printed finding => finding.meets bound
  | _ => true

/-- The trace without the findings that are less sure than the bound. -/
def Trace.above (trace : Trace) (bound : Number) : Trace :=
  { trace with events := trace.events.filter (Event.passes bound) }

theorem Trace.above_after (trace : Trace) (events : List Event) (bound : Number) :
    (trace.after events).above bound =
      (trace.above bound).after (events.filter (Event.passes bound)) := by
  simp only [above, after, List.filter_append]

/-! ## 2. The trace of a stricter reporter -/

namespace Reporter

variable {reporter : Reporter} {bound : Number} (h : reporter.minConfidence.le bound = true)

/-- The reporter with another threshold. -/
def withBound (reporter : Reporter) (bound : Number) : Reporter :=
  { reporter with minConfidence := bound }

include h

theorem shown_withBound (verdict : Verdict) :
    (reporter.withBound bound).shown verdict =
      (reporter.shown verdict).filter fun finding => finding.meets bound := by
  cases verdict with
  | findings found =>
    rw [shown, shown, List.filter_filter]
    apply List.filter_congr
    intro finding _
    -- What meets the stricter bound has met the other one already.
    cases hmeets : finding.meets bound with
    | false => exact hmeets
    | true => exact hmeets.trans (Number.atMost_of_le h hmeets).symm
  | refused message => rfl
  | crashed message => rfl

theorem hearing_withBound (files : Sources) (verdict : Verdict) :
    (reporter.withBound bound).hearing files verdict =
      (reporter.hearing files verdict).filter (Event.passes bound) := by
  rw [hearing, hearing, List.filter_cons_of_pos rfl]
  refine congrArg _ ?_
  cases verdict with
  | findings found =>
    show ((reporter.withBound bound).shown _).map _ = ((reporter.shown _).map _).filter _
    rw [shown_withBound h, List.filter_map]
    rfl
  | refused message => rfl
  | crashed message => rfl

/-- A stricter reporter prints less, and is otherwise no different: move by move the engine is asked
the same at the same turn, and a crash ends both traces. -/
theorem traceFrom_withBound (outcome : Except RunFault Unit) (turn : Nat) (moves : List Move) :
    (reporter.withBound bound).traceFrom outcome turn moves =
      (reporter.traceFrom outcome turn moves).above bound := by
  induction moves generalizing turn with
  | nil => rfl
  | cons move moves ih =>
    cases move with
    | note message =>
      rw [traceFrom, traceFrom, Trace.above_after, ih]
      rfl
    | fail message =>
      rw [traceFrom, traceFrom, Trace.above_after, ih]
      rfl
    | give files =>
      -- Turns are counted by calls, whatever is printed, so the two engines stay in step.
      have hverdict : (reporter.withBound bound).engine.inspect turn files
          (reporter.withBound bound).rules =
        reporter.engine.inspect turn files reporter.rules := rfl
      rw [traceFrom, traceFrom, hverdict, hearing_withBound h]
      cases reporter.engine.inspect turn files reporter.rules with
      | findings found =>
        dsimp only [answer]
        rw [ih, Trace.above_after]
      | refused message =>
        dsimp only [answer]
        rw [ih, Trace.above_after]
      | crashed message => rfl

end Reporter

/-! ## 3. What the two traces share -/

namespace Event

variable (bound : Number)

/-- Leaving out findings that are not sure enough leaves out nothing else. -/
theorem filterMap_passes {α : Type} (f : Event → Option α)
    (hprinted : ∀ finding, f (.printed finding) = none) (events : List Event) :
    (events.filter (passes bound)).filterMap f = events.filterMap f := by
  refine filterMap_filter (fun event hevent => ?_) events
  cases event with
  | printed finding => exact hprinted finding
  | _ => cases hevent

/-- The findings that remain are those that are sure enough. -/
theorem findings_filter_passes (events : List Event) :
    (events.filter (passes bound)).filterMap finding? =
      (events.filterMap finding?).filter fun finding => finding.meets bound := by
  rw [List.filterMap_filter, List.filter_filterMap]
  apply List.filterMap_congr
  intro event _
  cases event with
  | printed finding => rfl
  | _ => rfl

end Event

/-- Findings are not written to the error stream. -/
theorem Console.err_transcript_passes (console : Console) (bound : Number) (events : List Event) :
    (console.transcript (events.filter (Event.passes bound))).err =
      (console.transcript events).err := by
  induction events with
  | nil => rfl
  | cons event events ih =>
    cases event with
    | printed finding =>
      have hwritten : (console.written (.printed finding)).err = "" := rfl
      rw [transcript, Output.append_err, hwritten, String.empty_append, ← ih, List.filter_cons]
      split
      · rw [transcript, Output.append_err, hwritten, String.empty_append]
      · rfl
    | _ => rw [List.filter_cons_of_pos rfl, transcript, transcript, Output.append_err,
        Output.append_err, ih]

/-! ## 4. Runs -/

namespace Linter

/-- The linter with another threshold. -/
def withBound (linter : Linter) (bound : Number) : Linter :=
  { linter with reporter := linter.reporter.withBound bound }

theorem script_withBound (linter : Linter) (bound : Number) (disk : Disk) (args : List String) :
    (linter.withBound bound).script disk args = linter.script disk args := rfl

/-- A stricter run leaves the same events, less the findings that are not sure enough. -/
theorem runOn_run_withBound (linter : Linter) (disk : Disk) (args : List String)
    (journal : Journal) {bound bound' : Number} (h : bound.le bound' = true) :
    ∃ outcome events,
      ((linter.withBound bound).run disk args).runOn journal =
        (outcome, journal.extended events) ∧
      ((linter.withBound bound').run disk args).runOn journal =
        (outcome, journal.extended (events.filter (Event.passes bound'))) := by
  have htrace : (linter.withBound bound').reporter.trace journal.tally.units
      (linter.script disk args) = ((linter.withBound bound).reporter.trace journal.tally.units
        (linter.script disk args)).above bound' :=
    @Reporter.traceFrom_withBound (linter.reporter.withBound bound) bound' h _ _ _
  refine ⟨_, _, runOn_run _ _ _ _, ?_⟩
  rw [runOn_run, script_withBound, script_withBound, htrace]
  rfl

/-- Raising the threshold only removes findings. The two runs give the engine the same in the same
order, write the same to the error stream, count the same units and end in the same way. Of the
findings those remain, in their order, that are as sure as the higher threshold, so there are not
more of them, and a status that complains of findings would do so with the lower threshold too. -/
theorem run_stricter (linter : Linter) (disk : Disk) (args : List String) {bound bound' : Number}
    (h : bound.le bound' = true) :
    ∃ outcome later later',
      ((linter.withBound bound).run disk args).runOn {} = (outcome, later) ∧
      ((linter.withBound bound').run disk args).runOn {} = (outcome, later') ∧
      later'.calls = later.calls ∧
      (∀ console : Console,
        (console.transcript later'.events).err = (console.transcript later.events).err) ∧
      later'.tally.units = later.tally.units ∧
      later'.findings = later.findings.filter (fun finding => finding.meets bound') ∧
      (∀ console : Console,
        (console.transcript later.events).out =
          String.join (later.findings.map fun f => console.echoed f.render) ∧
        (console.transcript later'.events).out =
          String.join (later'.findings.map fun f => console.echoed f.render)) ∧
      later.tally.suggestions = later.findings.length ∧
      later'.tally.suggestions = later'.findings.length ∧
      later'.tally.suggestions ≤ later.tally.suggestions ∧
      (exitStatus true later'.tally.suggestions = 1 →
        exitStatus true later.tally.suggestions = 1) := by
  obtain ⟨outcome, events, hrun, hrun'⟩ := linter.runOn_run_withBound disk args {} h
  have hcalls : (events.filter (Event.passes bound')).filterMap Event.call? =
      events.filterMap Event.call? := Event.filterMap_passes bound' _ (fun _ => rfl) events
  have hfindings := Event.findings_filter_passes bound' events
  have hsuggestions : ∀ events, (Journal.extended {} events).tally.suggestions =
      (Journal.extended {} events).findings.length := fun events => Nat.zero_add _
  have hle : ((Journal.extended {} (events.filter (Event.passes bound'))).findings).length ≤
      (Journal.extended {} events).findings.length := by
    show ((events.filter (Event.passes bound')).filterMap Event.finding?).length ≤
      (events.filterMap Event.finding?).length
    rw [hfindings]
    exact List.length_filter_le _ _
  refine ⟨outcome, _, _, hrun, hrun', hcalls, fun console => ?_, ?_, hfindings,
    fun console => ⟨console.out_transcript _, console.out_transcript _⟩, hsuggestions _,
    hsuggestions _, ?_, ?_⟩
  · exact console.err_transcript_passes bound' events
  · exact congrArg (fun calls : List Call => 0 + calls.length) hcalls
  · rwa [hsuggestions, hsuggestions]
  · intro hstatus
    rw [hsuggestions, Command.exitStatus_eq_one_iff] at hstatus ⊢
    exact ⟨rfl, Int.lt_of_lt_of_le hstatus.2 (Int.ofNat_le.2 hle)⟩

/-- A linter whose engine finds two things in every unit and is surer of the first. -/
def ofTwoMinds : Linter where
  reporter :=
    { engine :=
        { name := "two-minds"
          inspect := fun _ _ _ => .findings
            [{ position := ⟨"x.py", 1, 0⟩, text := "surely", confidence := .finite false 2 },
              { position := ⟨"x.py", 2, 0⟩, text := "perhaps", confidence := .finite false 1 }] }
      rules := .everything
      minConfidence := .integer 0 }

/-- Of the two findings only the surer one remains. -/
theorem stricter_ofTwoMinds :
    Number.le (.integer 0) (.real (.finite false 2)) = true ∧
    ∃ later later',
      ((ofTwoMinds.withBound (.integer 0)).run Command.loudHost.disk ["x.py"]).runOn {} =
        (.ok (), later) ∧
      ((ofTwoMinds.withBound (.real (.finite false 2))).run Command.loudHost.disk
        ["x.py"]).runOn {} = (.ok (), later') ∧
      later'.calls = later.calls ∧ later.findings.map Finding.text = ["surely", "perhaps"] ∧
      later'.findings.map Finding.text = ["surely"] := by
  have hle : Number.le (.integer 0) (.real (.finite false 2)) = true := by decide +kernel
  obtain ⟨outcome, later, later', hrun, hrun', hcalls, -, -, hfindings, -⟩ :=
    run_stricter ofTwoMinds Command.loudHost.disk ["x.py"] hle
  have hjournal := hrun
  rw [runOn_run, script_withBound, Command.script_loudHost] at hjournal
  obtain ⟨rfl, rfl⟩ := Prod.mk.inj hjournal
  refine ⟨hle, _, later', hrun, hrun', hcalls, by decide +kernel, ?_⟩
  rw [hfindings]
  decide +kernel

end Linter

end LintFront
