import LintFront.Proofs.Run.Accounts
/-!
# The trace of a script

To compare two runs one needs to know what each of them adds to the journal. Following a script
never looks at the events that are in the journal already, and of the tally it looks at the turn
alone. So what is added is known from the script, the turn and the answers of the engine: it is a
list of events, which we call the *trace*, and it comes with the way in which the run ends. The
counters are no part of it, since they can be counted off the events.

An engine may crash, and then the trace stops there. This is the one way in which the moves that
come first have a say in what becomes of those that come later, apart from the turn.

A message for debugging is not heard unless it is asked for. Of two scripts with the same moves,
such messages aside, the traces are the same, such messages aside.

## Main statements

`Reporter.runOn_play`: following a script adds its trace to the journal.
`Reporter.heard_traceFrom`: the messages for debugging are only that.
-/

namespace LintFront

/-! ## 1. Adding events to a journal -/

/-- The journal after more events, which are counted. -/
def Journal.extended (journal : Journal) (events : List Event) : Journal where
  tally :=
    { units := journal.tally.units + (events.filterMap Event.call?).length
      suggestions := journal.tally.suggestions + (events.filterMap Event.finding?).length }
  events := journal.events ++ events

namespace Journal

variable (journal : Journal)

@[simp] theorem extended_nil : journal.extended [] = journal := by
  simp [extended]

theorem extended_append (a b : List Event) :
    journal.extended (a ++ b) = (journal.extended a).extended b := by
  simp only [extended, List.filterMap_append, List.length_append, List.append_assoc,
    Nat.add_assoc]

@[simp] theorem calls_extended (events : List Event) :
    (journal.extended events).calls = journal.calls ++ events.filterMap Event.call? := by
  simp only [calls, extended, List.filterMap_append]

@[simp] theorem findings_extended (events : List Event) :
    (journal.extended events).findings = journal.findings ++ events.filterMap Event.finding? := by
  simp only [findings, extended, List.filterMap_append]

end Journal

/-! ## 2. Traces -/

/-- What a part of a run adds to the journal, and how it ends. -/
structure Trace where
  events : List Event := []
  outcome : Except RunFault Unit := .ok ()

namespace Trace

/-- The trace with events before it. -/
def after (trace : Trace) (events : List Event) : Trace :=
  { trace with events := events ++ trace.events }

/-- What the engine is given in the course of the trace. -/
def calls (trace : Trace) : List Call := trace.events.filterMap Event.call?

/-- The findings that are printed in the course of the trace. -/
def findings (trace : Trace) : List Finding := trace.events.filterMap Event.finding?

@[simp] theorem outcome_after (trace : Trace) (events : List Event) :
    (trace.after events).outcome = trace.outcome := rfl

@[simp] theorem calls_after (trace : Trace) (events : List Event) :
    (trace.after events).calls = events.filterMap Event.call? ++ trace.calls :=
  List.filterMap_append

@[simp] theorem findings_after (trace : Trace) (events : List Event) :
    (trace.after events).findings = events.filterMap Event.finding? ++ trace.findings :=
  List.filterMap_append

end Trace

namespace Reporter

variable (reporter : Reporter)

/-- The events of giving files to the engine, with its verdict. -/
def hearing (files : Sources) (verdict : Verdict) : List Event :=
  .inspected reporter.engine files reporter.rules :: reporter.aftermath verdict

@[simp] theorem calls_hearing (files : Sources) (verdict : Verdict) :
    (reporter.hearing files verdict).filterMap Event.call? = [reporter.callOn files] := by
  simp only [hearing, List.filterMap_cons, Event.call?, calls_aftermath, callOn]

@[simp] theorem findings_hearing (files : Sources) (verdict : Verdict) :
    (reporter.hearing files verdict).filterMap Event.finding? = reporter.shown verdict := by
  simp only [hearing, List.filterMap_cons, Event.finding?, findings_aftermath]

/-- The trace of moves when as many units as the turn says were given to the engine before; after
the last move the run ends as told. -/
def traceFrom (outcome : Except RunFault Unit) : (turn : Nat) → List Move → Trace
  | _, [] => { outcome }
  | turn, .note message :: rest => (traceFrom outcome turn rest).after [.noted message]
  | turn, .fail message :: rest => (traceFrom outcome turn rest).after [.failed message]
  | turn, .give files :: rest =>
    let verdict := reporter.engine.inspect turn files reporter.rules
    match reporter.answer verdict with
    | .ok _ => (traceFrom outcome (turn + 1) rest).after (reporter.hearing files verdict)
    | .error fault => { events := reporter.hearing files verdict, outcome := .error fault }

/-- The trace of a script. -/
def trace (turn : Nat) (script : Script) : Trace :=
  reporter.traceFrom script.outcome turn script.moves

theorem play_cons (move : Move) (moves : List Move) (ending : Option RunFault) :
    reporter.play ⟨move :: moves, ending⟩ =
      (reporter.perform move >>= fun _ => reporter.play ⟨moves, ending⟩) := by
  show ((reporter.perform move >>= fun _ => moves.forM reporter.perform) >>= fun _ => _) = _
  rw [bind_assoc]
  rfl

/-- Giving files to the engine, as a move, ends as the engine answers and adds what was heard. -/
theorem runOn_perform_give (files : Sources) (journal : Journal) :
    (reporter.perform (.give files)).runOn journal =
      ((reporter.answer (reporter.verdictOn journal files)).map fun _ => (),
        journal.extended (reporter.hearing files (reporter.verdictOn journal files))) := by
  show (reporter.inspect files >>= fun _ => pure ()).runOn journal = _
  rw [Run.runOn_bind, runOn_inspect, Journal.extended, calls_hearing, findings_hearing]
  cases reporter.answer (reporter.verdictOn journal files) <;> rfl

/-- Following a script adds its trace to the journal and ends as the trace does. -/
theorem runOn_play (script : Script) (journal : Journal) :
    (reporter.play script).runOn journal =
      ((reporter.trace journal.tally.units script).outcome,
        journal.extended (reporter.trace journal.tally.units script).events) := by
  obtain ⟨moves, ending⟩ := script
  rw [trace]
  generalize houtcome : Script.outcome ⟨moves, ending⟩ = outcome
  induction moves generalizing journal with
  | nil =>
    subst houtcome
    rw [traceFrom, Journal.extended_nil]
    cases ending <;> rfl
  | cons move moves ih =>
    rw [play_cons, Run.runOn_bind]
    cases move with
    | note message =>
      rw [show (reporter.perform (.note message)).runOn journal =
        (.ok (), journal.extended [.noted message]) from rfl]
      dsimp only
      rw [ih _ houtcome, traceFrom, Trace.after, Journal.extended_append]
      rfl
    | fail message =>
      rw [show (reporter.perform (.fail message)).runOn journal =
        (.ok (), journal.extended [.failed message]) from rfl]
      dsimp only
      rw [ih _ houtcome, traceFrom, Trace.after, Journal.extended_append]
      rfl
    | give files =>
      rw [runOn_perform_give, traceFrom]
      dsimp only [verdictOn]
      cases reporter.answer (reporter.engine.inspect journal.tally.units files reporter.rules) with
      | error fault => rfl
      | ok n =>
        -- The next turn is the one after, since giving files is one call.
        dsimp only [Except.map]
        rw [ih _ houtcome, Trace.after, Journal.extended_append, Journal.extended, calls_hearing]
        rfl

/-! ## 3. What is asked and what is printed -/

variable {reporter : Reporter} {outcome : Except RunFault Unit} {turn : Nat} {moves : List Move}

/-- The engine is given what the moves give, or what comes first of it if the engine crashes. -/
theorem calls_traceFrom_isPrefix :
    (reporter.traceFrom outcome turn moves).calls <+:
      (moves.filterMap Move.given?).map reporter.callOn := by
  induction moves generalizing turn with
  | nil => exact List.prefix_refl []
  | cons move moves ih =>
    cases move with
    | note message => exact ih
    | fail message => exact ih
    | give files =>
      rw [List.filterMap_cons_some (show (Move.give files).given? = some files from rfl),
        List.map_cons, traceFrom]
      -- A crash keeps all that comes after from being given.
      split
      · rw [Trace.calls_after, calls_hearing, List.singleton_append]
        exact (List.prefix_cons_inj _).2 ih
      · rw [Trace.calls, calls_hearing]
        exact (List.prefix_cons_inj _).2 List.nil_prefix

/-- If there is anything to ask, the engine is asked. -/
theorem calls_traceFrom_ne_nil (h : moves.filterMap Move.given? ≠ []) :
    (reporter.traceFrom outcome turn moves).calls ≠ [] := by
  induction moves generalizing turn with
  | nil => exact absurd rfl h
  | cons move moves ih =>
    cases move with
    | note message => exact ih h
    | fail message => exact ih h
    | give files =>
      rw [traceFrom]
      split
      · rw [Trace.calls_after, calls_hearing]
        exact List.cons_ne_nil _ _
      · rw [Trace.calls, calls_hearing]
        exact List.cons_ne_nil _ _

/-- A trace that comes to its end is not ended by what comes after the last move either. -/
theorem eq_ok_of_outcome_traceFrom (h : (reporter.traceFrom outcome turn moves).outcome = .ok ()) :
    outcome = .ok () := by
  induction moves generalizing turn with
  | nil => exact h
  | cons move moves ih =>
    cases move with
    | note message => exact ih h
    | fail message => exact ih h
    | give files =>
      rw [traceFrom] at h
      -- A trace that comes to its end has no crash in it.
      split at h
      · exact ih h
      · cases h

/-- A trace that comes to its end asks for all that the moves give and prints what is due for it. -/
theorem accounts_of_outcome_eq_ok (h : (reporter.traceFrom outcome turn moves).outcome = .ok ()) :
    (reporter.traceFrom outcome turn moves).calls =
        (moves.filterMap Move.given?).map reporter.callOn ∧
      (reporter.traceFrom outcome turn moves).findings =
        reporter.due turn ((moves.filterMap Move.given?).map reporter.callOn) := by
  induction moves generalizing turn with
  | nil => exact ⟨rfl, rfl⟩
  | cons move moves ih =>
    cases move with
    | note message => exact ih h
    | fail message => exact ih h
    | give files =>
      rw [List.filterMap_cons_some (show (Move.give files).given? = some files from rfl),
        List.map_cons, due]
      rw [traceFrom] at h ⊢
      split at h
      · obtain ⟨hcalls, hfindings⟩ := ih h
        rw [Trace.calls_after, Trace.findings_after, hcalls, hfindings, calls_hearing,
          findings_hearing]
        exact ⟨rfl, rfl⟩
      · cases h

end Reporter

/-! ## 4. What is heard -/

/-- Is the event more than a message for debugging? -/
def Event.isLoud : Event → Bool
  | noted _ => false
  | _ => true

/-- Is the move more than a message for debugging? -/
def Move.isLoud : Move → Bool
  | note _ => false
  | _ => true

/-- The trace without the messages for debugging. -/
def Trace.heard (trace : Trace) : Trace :=
  { trace with events := trace.events.filter Event.isLoud }

theorem Trace.heard_after (trace : Trace) (events : List Event) :
    (trace.after events).heard = trace.heard.after (events.filter Event.isLoud) := by
  simp only [heard, after, List.filter_append]

/-- What is looked for among events is not lost with events that are nothing of the kind. -/
theorem Event.filterMap_filter {α : Type} {f : Event → Option α} {keep : Event → Bool}
    (h : ∀ event, keep event = false → f event = none) (events : List Event) :
    (events.filter keep).filterMap f = events.filterMap f := by
  rw [List.filterMap_filter]
  refine congrArg (List.filterMap · events) (funext fun event => ?_)
  cases hkeep : keep event with
  | true => rfl
  | false => exact (h event hkeep).symm

/-- What the engine is given and what is printed is heard. -/
theorem Event.filterMap_isLoud {α : Type} (f : Event → Option α)
    (hnoted : ∀ message, f (.noted message) = none) (events : List Event) :
    (events.filter Event.isLoud).filterMap f = events.filterMap f := by
  refine filterMap_filter (fun event hevent => ?_) events
  cases event with
  | noted message => exact hnoted message
  | _ => cases hevent

namespace Reporter

theorem filter_isLoud_hearing (reporter : Reporter) (files : Sources) (verdict : Verdict) :
    (reporter.hearing files verdict).filter Event.isLoud = reporter.hearing files verdict := by
  have haftermath : ∀ event ∈ reporter.aftermath verdict, event.isLoud = true := by
    intro event hevent
    cases verdict with
    | refused message =>
      rw [List.mem_singleton.1 hevent]
      rfl
    | findings found =>
      obtain ⟨finding, -, rfl⟩ := List.mem_map.1 hevent
      rfl
    | crashed message => cases hevent
  rw [List.filter_eq_self, hearing, List.forall_mem_cons]
  exact ⟨rfl, haftermath⟩

/-- What is heard of moves hangs on those alone that are more than messages for debugging. -/
theorem heard_traceFrom (reporter : Reporter) (outcome : Except RunFault Unit) (turn : Nat)
    (moves : List Move) :
    (reporter.traceFrom outcome turn moves).heard =
      reporter.traceFrom outcome turn (moves.filter Move.isLoud) := by
  induction moves generalizing turn with
  | nil => rfl
  | cons move moves ih =>
    cases move with
    | note message =>
      rw [List.filter_cons_of_neg (by simp [Move.isLoud]), traceFrom, Trace.heard_after, ih]
      rfl
    | fail message =>
      rw [List.filter_cons_of_pos rfl, traceFrom, traceFrom, Trace.heard_after, ih]
      rfl
    | give files =>
      rw [List.filter_cons_of_pos rfl, traceFrom, traceFrom]
      cases reporter.answer (reporter.engine.inspect turn files reporter.rules) with
      | ok n =>
        dsimp only
        rw [Trace.heard_after, ih, filter_isLoud_hearing]
      | error fault =>
        dsimp only
        rw [Trace.heard, filter_isLoud_hearing]

end Reporter

/-- Unless messages for debugging are asked for, what is not heard is not written. -/
theorem Console.transcript_filter_isLoud {console : Console} (h : console.debug = false)
    (events : List Event) :
    console.transcript (events.filter Event.isLoud) = console.transcript events := by
  induction events with
  | nil => rfl
  | cons event events ih =>
    cases event with
    | noted message =>
      have hsilent : console.written (.noted message) = {} := by
        simp only [written, debugging, debuggingBy, h]
        rfl
      rw [List.filter_cons_of_neg (by simp [Event.isLoud]), transcript, hsilent, ih,
        Output.nil_append]
    | _ => rw [List.filter_cons_of_pos rfl, transcript, transcript, ih]

end LintFront
