import LintFront.Console.Stream
import LintFront.Run.Journal
/-!
# What a run writes

The journal of a run says what happened; the console says how that is written. Findings go to the
standard output, and everything that is said about the run goes to the error stream. What the engine
was given is not written at all.

## Main statements

`transcript_append`: the output of one part of a run is followed by the output of the next, so a
step of a session writes what its own events say and nothing else.
-/

namespace LintFront

/-- What was written to the two streams. -/
structure Output where
  out : String := ""
  err : String := ""
  deriving DecidableEq, Repr

namespace Output

/-- One output after the other. -/
def append (a b : Output) : Output := ⟨a.out ++ b.out, a.err ++ b.err⟩

instance : Append Output := ⟨append⟩

@[simp] theorem append_out (a b : Output) : (a ++ b).out = a.out ++ b.out := rfl

@[simp] theorem append_err (a b : Output) : (a ++ b).err = a.err ++ b.err := rfl

theorem append_assoc (a b c : Output) : a ++ b ++ c = a ++ (b ++ c) := by
  change Output.mk _ _ = Output.mk _ _
  simp [String.append_assoc]

theorem nil_append (a : Output) : ({} : Output) ++ a = a := by
  change Output.mk _ _ = a
  simp

end Output

/-- The last line of a run that failed because of its findings (`format_failure_summary`). -/
def failureSummary (suggestions : Int) : String :=
  "Found " ++ toString suggestions ++ " lint suggestions; failing."

/-- The exit status of a run that came to its end: findings count only when the settings say so
(`exit_status`). -/
def exitStatus (setExitStatus : Bool) (suggestions : Int) : Nat :=
  if setExitStatus && 0 < suggestions then 1 else 0

namespace Console

/-- What an event writes. -/
def written (console : Console) : Event → Output
  | .inspected _ _ _ => {}
  | .printed finding => { out := console.echoed finding.render }
  | .failed message => { err := console.failure message }
  | .warned message => { err := console.warning message }
  | .noted message => { err := console.debugging message }
  | .concluded suggestions => { err := console.echoed (failureSummary suggestions) }

/-- What a sequence of events writes. -/
def transcript (console : Console) : List Event → Output
  | [] => {}
  | event :: rest => console.written event ++ console.transcript rest

theorem transcript_append (console : Console) (a b : List Event) :
    console.transcript (a ++ b) = console.transcript a ++ console.transcript b := by
  induction a with
  | nil => simp [transcript, Output.nil_append]
  | cons event a ih => simp [transcript, ih, Output.append_assoc]

end Console

end LintFront
