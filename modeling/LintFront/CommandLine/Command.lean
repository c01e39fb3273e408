import LintFront.CommandLine.Usage
import LintFront.Console.Output
import LintFront.Number.Shortest
import LintFront.Run.Orchestrate
/-!
# The command

The command reads its arguments, loads the settings of the working directory, makes the engine that
they name, and lints the targets. Each step may end the command: with a report to the user and the
exit status two when it was used wrongly, or with a fault that nobody foresaw. Only the last step
gives anything to an engine, so a command that was used wrongly has linted nothing.

What the command does is a function of the `Host` it runs on. The journal of the outcome says what
happened, the output how it was written.
-/

namespace LintFront

/-- What a command runs on. -/
structure Host where
  disk : Disk
  /-- Where packages are searched besides the working directory. -/
  search : List String := []
  installation : Installation
  parse : SourceParser
  /-- Are the streams a terminal? -/
  tty : Bool := false
  /-- How the value of `--min-confidence` is read. -/
  bound : BoundReader := .validating

/-- What ends a command without an exit status. -/
inductive CommandFault where
  | loading (fault : LoadFault)
  | plugin (failure : LoadFailure)
  /-- The factory of the engine failed. -/
  | making (failure : MakingFailure)
  | running (fault : RunFault)
  deriving DecidableEq, Repr

/-- The wording of a fault. -/
def CommandFault.message : CommandFault → String
  | loading fault => fault.message
  | plugin failure => failure.message
  | making failure => failure.message
  | running fault => fault.message

/-- What ends a command before its end. -/
inductive Ending where
  | usage (error : UsageError)
  | fault (fault : CommandFault)
  deriving DecidableEq, Repr

/-- A step of a command: it adds to the journal and may end the command. -/
abbrev Stage := ExceptT Ending (StateM Journal)

namespace Stage

/-- Adds an event to the journal. -/
def record (event : Event) : Stage Unit :=
  modify fun journal => { journal with events := journal.events ++ [event] }

/-- What a fault of a run means to the command: targets that do not go together are a wrong
usage. -/
def endingOf : RunFault → Ending
  | .plan error => .usage (.targets error)
  | fault => .fault (.running fault)

/-- Loads the settings and applies what the command line overrides (`_load_config`). -/
def settings (host : Host) (invocation : Invocation) : Stage Settings := do
  match Loaded.load host.disk host.disk.cwd invocation.config with
  | .error (.error error) => throw (.usage (.settings error))
  | .error (.fault fault) => throw (.fault (.loading fault))
  | .ok loaded =>
    loaded.applied.forM fun name => record (.noted ("config source=" ++ name))
    return invocation.overrides.apply loaded.settings

/-- Makes the engine of a name. Entries that cannot be loaded are reported. -/
def engine (host : Host) (name : String) : Stage Engine := do
  let (skipped, made) :=
    Registry.createAvailable (Registry.builtIn host.parse) host.installation name
  skipped.forM fun s =>
    record (.warned ("skipping analyzer plugin " ++ s.1 ++ ": " ++ s.2.message))
  match made with
  | .ok engine => return engine
  | .error (.unknown name available) => throw (.usage (.noSuchAnalyzer name available))
  | .error (.loading failure) => throw (.fault (.plugin failure))
  | .error (.making failure) => throw (.fault (.making failure))

/-- The linter that settings and an engine make (`build_orchestrator`). -/
def linter (host : Host) (settings : Settings) (engine : Engine) : Linter where
  search := host.search
  excludes := settings.excludes
  reporter := { engine, rules := settings.rules, minConfidence := settings.minConfidence }

/-- Tells the exit status of the run that came to its end, and its number of findings if they make
it fail. -/
def conclude (settings : Settings) : Stage Nat := do
  let suggestions := (← get).tally.suggestions
  let status := exitStatus settings.setExitStatus suggestions
  if status ≠ 0 then record (.concluded suggestions)
  return status

/-- Everything from the settings to the exit status (`_load_config`, `_run_lint`). -/
def lint (host : Host) (invocation : Invocation) : Stage Nat := do
  let settings ← settings host invocation
  let engine ← engine host settings.analyzer
  record (.noted ("analyzer=" ++ engine.name ++ " min_confidence=" ++ settings.minConfidence.text))
  ExceptT.adapt endingOf ((linter host settings engine).run host.disk invocation.targets)
  conclude settings

end Stage

/-- What a command comes to. -/
structure Outcome where
  /-- The exit status, or what ended the command without one. -/
  status : Except CommandFault Nat
  journal : Journal := {}
  output : Output

namespace Command

/-- The exit status of a command that was used wrongly. -/
def usageStatus : Nat := 2

/-- The report of a wrong usage. -/
def refusal (console : Console) (error : UsageError) : Output :=
  { err := console.echoed error.report }

/-- Runs what the command line asks for. -/
def perform (host : Host) (invocation : Invocation) : Outcome :=
  let console := Console.ofSwitches invocation.emoji invocation.debug invocation.noColor host.tty
  let (ending, journal) := StateT.run (ExceptT.run (Stage.lint host invocation)) {}
  let written := console.transcript journal.events
  match ending with
  | .ok status => { status := .ok status, journal, output := written }
  | .error (.usage error) =>
    { status := .ok usageStatus, journal, output := written ++ refusal console error }
  | .error (.fault fault) => { status := .error fault, journal, output := written }

/-- Runs the command with the given arguments (`lint`). -/
def run (host : Host) (args : List String) : Outcome :=
  let console := Console.ofSwitches true false false host.tty
  match Arguments.read args with
  | .error error =>
    { status := .ok usageStatus, output := refusal console (.arguments error) }
  | .ok arguments =>
    if arguments.has .help then { status := .ok 0, output := { out := console.echoed Help.text } }
    else
      match Invocation.ofArguments host.disk host.bound arguments with
      | .error error => { status := .ok usageStatus, output := refusal console error }
      | .ok invocation => perform host invocation

end Command

end LintFront
