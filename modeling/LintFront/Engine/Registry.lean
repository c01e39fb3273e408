import LintFront.Engine.SyntaxEngine
import LintFront.Entries
import LintFront.Text.Quoted
/-!
# The registry of engines

Engines are chosen by name. One name is always there, that of the built-in engine; others come from
what is installed. An installed *entry point* has to be loaded first, and that may fail. Failures of
the usual sorts are skipped and told, so that one broken installation does no harm to the others;
any other failure is not for the registry to hide.

A name stands for the last entry that could be loaded under it. A broken entry neither removes nor
replaces what its name stood for.
-/

namespace LintFront

/-- The sorts of failure. -/
inductive FailureKind where
  | attributeMissing
  | importFailed
  | moduleMissing
  | valueRejected
  | textRejected
  | stateRejected
  | notImplemented
  | tooDeep
  | keyMissing
  | typeMismatch
  | system
  | lookupFailed
  | other (name : String)
  deriving DecidableEq, Repr

namespace FailureKind

/-- Is a failure of this kind skipped? -/
def isSkipped : FailureKind → Bool
  | attributeMissing | importFailed | moduleMissing | valueRejected | textRejected | stateRejected
  | notImplemented | tooDeep => true
  | _ => false

end FailureKind

/-- A failure with what was said about it. -/
structure LoadFailure where
  kind : FailureKind
  detail : String
  deriving DecidableEq, Repr

/-- The wording of a failure. A key that was not found is quoted. -/
def LoadFailure.message (failure : LoadFailure) : String :=
  match failure.kind with
  | .keyMissing => Text.quote failure.detail
  | _ => failure.detail

/-- Why a factory makes no engine. -/
inductive MakingFailure where
  | crashed (message : String)
  /-- The engine was to give findings that are none. -/
  | invalid (complaints : List Complaint)
  deriving DecidableEq, Repr

/-- The wording of a failure. -/
def MakingFailure.message : MakingFailure → String
  | crashed message => message
  | invalid complaints => "; ".intercalate (complaints.map fun c => c.kind.message)

/-- Makes an engine, or fails. -/
abbrev Factory := Except MakingFailure Engine

/-- An installed entry point and what loading it comes to. -/
structure EntryPoint where
  name : String
  group : String
  load : Except LoadFailure Factory

/-- What is installed. -/
inductive Installation where
  | listed (entries : List EntryPoint)
  /-- Something that cannot be asked for the entries of a group. -/
  | unlisted

namespace Registry

/-- The group of the entry points that are engines (`ANALYZER_PLUGIN_GROUP`). -/
def engineGroup : String := "unitlint.analyzers"

/-- The installed engines in order (`_select_entry_points`). -/
def installed : Installation → List EntryPoint
  | .listed entries => entries.filter fun e => e.group = engineGroup
  | .unlisted => []

/-- The factories of the engines that come with the front end (`BUILTIN_ANALYZERS`). -/
def builtIn (parse : SourceParser) : Entries Factory :=
  [("syntax", .ok (SyntaxEngine.engine parse))]

/-- A skipped entry: its name and its failure. -/
abbrev Skipped := String × LoadFailure

/-- What loading entry points comes to: what was skipped up to the end, and the factories by name or
the failure that ended the loading. -/
structure Loading where
  skipped : List Skipped
  outcome : Except LoadFailure (Entries Factory)

/-- Loads entry points one after the other, after those in `factories`. -/
def loadFrom (skipped : List Skipped) (factories : Entries Factory) : List EntryPoint → Loading
  | [] => ⟨skipped, .ok factories⟩
  | entry :: rest =>
    match entry.load with
    | .ok factory => loadFrom skipped (factories.insert entry.name factory) rest
    | .error failure =>
      if failure.kind.isSkipped then loadFrom (skipped ++ [(entry.name, failure)]) factories rest
      else ⟨skipped, .error failure⟩

/-- The factories of the installed engines (`load_analyzer_plugins`). -/
def plugins (installation : Installation) : Loading := loadFrom [] [] (installed installation)

/-- The factories of all engines: the built-in ones overlaid by the installed ones
(`available_analyzers`). -/
def available (own : Entries Factory) (installation : Installation) : Loading :=
  let loading := plugins installation
  { loading with
    outcome := loading.outcome.map fun factories =>
      factories.foldl (fun all e => all.insert e.1 e.2) own }

/-- Why there is no engine (`UnknownAnalyzerError`). -/
inductive CreateError where
  /-- Nothing goes by the name; the names that there are, in ascending order. -/
  | unknown (name : String) (available : List String)
  | loading (failure : LoadFailure)
  /-- The factory failed. -/
  | making (failure : MakingFailure)
  deriving DecidableEq, Repr

namespace CreateError

/-- The wording of a reason. -/
def message : CreateError → String
  | unknown name available =>
    "unknown analyzer " ++ Text.quote name ++ "; available: " ++ ", ".intercalate available
  | loading failure => failure.message
  | making failure => failure.message

end CreateError

/-- The engine that goes by a name among factories (`create_analyzer`). -/
def create (factories : Entries Factory) (name : String) : Except CreateError Engine :=
  match factories.find? name with
  | none => .error (.unknown name (factories.names.mergeSort (· ≤ ·)))
  | some (.error failure) => .error (.making failure)
  | some (.ok engine) => .ok engine

/-- The engine that goes by a name among all that are available, and what was skipped. -/
def createAvailable (own : Entries Factory) (installation : Installation) (name : String) :
    List Skipped × Except CreateError Engine :=
  let loading := available own installation
  (loading.skipped,
    match loading.outcome with
    | .error failure => .error (.loading failure)
    | .ok factories => create factories name)

end Registry

end LintFront
