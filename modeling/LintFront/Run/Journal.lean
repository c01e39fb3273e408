import LintFront.Engine.Basic
import LintFront.SourceUnit
import LintFront.Target
/-!
# The journal of a run

A run leaves a trace: what the engine was given, what was printed, what was reported. The journal
holds these events in order, and beside them a tally of units and of printed findings. The tally is
kept by itself and is not computed from the events, because it outlives them: a session may go on
with the tally of one run and a new list of events.

A run may end before its end. The journal then holds everything up to that point.
-/

namespace LintFront

/-- How many findings were printed and how many units were given to the engine (`LintTally`). -/
structure Tally where
  suggestions : Nat := 0
  units : Nat := 0
  deriving DecidableEq, Repr

/-- Something that happened in a run. -/
inductive Event where
  /-- An engine was given files and a selection of rules. -/
  | inspected (engine : Engine) (files : Sources) (rules : RuleSelection)
  /-- A finding was printed. -/
  | printed (finding : Finding)
  /-- A failure was reported. -/
  | failed (message : String)
  /-- A warning was given. -/
  | warned (message : String)
  /-- A message for debugging was given. -/
  | noted (message : String)
  /-- The run was declared failed because of its findings, so many. -/
  | concluded (suggestions : Nat)

/-- The trace of a run. -/
structure Journal where
  tally : Tally := {}
  events : List Event := []

/-- What an engine was given. -/
structure Call where
  engine : Engine
  files : Sources
  rules : RuleSelection

namespace Event

/-- What an engine was given by the event. -/
def call? : Event → Option Call
  | inspected engine files rules => some ⟨engine, files, rules⟩
  | _ => none

/-- The finding that the event printed. -/
def finding? : Event → Option Finding
  | printed finding => some finding
  | _ => none

end Event

namespace Journal

/-- What engines were given, in order. -/
def calls (journal : Journal) : List Call := journal.events.filterMap Event.call?

/-- The findings that were printed, in order. -/
def findings (journal : Journal) : List Finding := journal.events.filterMap Event.finding?

end Journal

/-- Why a run ends before its end. -/
inductive RunFault where
  /-- The targets do not form a plan. -/
  | plan (error : PlanError)
  | fault (fault : Fault)
  /-- The engine crashed. -/
  | crash (message : String)
  deriving DecidableEq, Repr

namespace RunFault

/-- The wording of a fault. -/
def message : RunFault → String
  | .plan error => error.message
  | .fault f => f.message
  | .crash message => message

end RunFault

/-- A part of a run: it adds to the journal and may end the run. -/
abbrev Run := ExceptT RunFault (StateM Journal)

namespace Run

/-- Adds an event to the journal. -/
def record (event : Event) : Run Unit :=
  modify fun journal => { journal with events := journal.events ++ [event] }

/-- Counts a unit given to the engine (`LintTally.record_unit`). -/
def countUnit : Run Unit :=
  modify fun journal =>
    { journal with tally := { journal.tally with units := journal.tally.units + 1 } }

/-- Counts a printed finding (`LintTally.record_finding`). -/
def countFinding : Run Unit :=
  modify fun journal =>
    { journal with tally := { journal.tally with suggestions := journal.tally.suggestions + 1 } }

/-- The part of a run over a journal: how it ends, and the journal then. -/
def runOn {α : Type} (run : Run α) (journal : Journal) : Except RunFault α × Journal :=
  StateT.run (ExceptT.run run) journal

end Run

end LintFront
