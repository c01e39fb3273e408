import LintFront.CommandLine.Help
import LintFront.Engine.Registry
import LintFront.Settings.Load
import LintFront.Settings.Overrides
import LintFront.Target
/-!
# Using the command rightly

A command line that can be taken apart may still ask for something that makes no sense. The values
of its options are looked at in the order in which the options are first mentioned, and of each
option the last value counts. Later it may turn out that the settings cannot be read, that there is
no such engine, or that the targets do not go together. All of these are `UsageError`s: the user can
mend them, and nothing has been linted.
-/

namespace LintFront

/-- How the command was used wrongly. -/
inductive UsageError where
  | arguments (error : ArgumentError)
  | badConfidence (fault : String)
  | configIsDirectory (path : String)
  /-- The path of the settings cannot be used at all. -/
  | configUnusable (error : AccessError)
  | settings (error : SettingsError)
  | noSuchAnalyzer (name : String) (available : List String)
  | targets (error : PlanError)
  deriving DecidableEq, Repr

namespace UsageError

/-- A fault in the value of a parameter. -/
def inValueOf (parameter fault : String) : String :=
  "Invalid value for '" ++ parameter ++ "': " ++ fault

/-- The wording of an error. -/
def message : UsageError → String
  | arguments (.noSuchOption name) => "No such option: " ++ Text.visible name
  | arguments (.requiresArgument name) => "Option '" ++ name ++ "' requires an argument."
  | arguments (.takesNoValue name) => "Option '" ++ name ++ "' does not take a value."
  | badConfidence fault => inValueOf "--min-confidence" fault
  | configIsDirectory path =>
    inValueOf "--config" ("file " ++ Text.quote path ++ " is a directory.")
  | configUnusable error => inValueOf "--config" ("Value error, " ++ error.reason)
  | settings error => inValueOf "--config" error.message
  | noSuchAnalyzer name available =>
    inValueOf "--analyzer" (Registry.CreateError.unknown name available).message
  | targets error => inValueOf "TARGETS..." error.message

/-- Is the user reminded how the command is called? Not when an option was merely given a value too
few or too many. -/
def reminds : UsageError → Bool
  | arguments (.requiresArgument _) => false
  | arguments (.takesNoValue _) => false
  | _ => true

/-- The report of an error. -/
def report (error : UsageError) : String :=
  "\n".intercalate
    ((if error.reminds then [Help.usage, Help.hint, ""] else []) ++ ["Error: " ++ error.message])

end UsageError

/-- How the text of a bounded number on the command line is read: as the number, or as what is wrong
with the text. The reading is done by the library that takes options apart, so it is a parameter of
all that follows. -/
abbrev BoundReader := String → Except String Double

namespace BoundReader

/-- The reader that takes a text by the rules for a threshold in the settings. They ask for a number
between zero and one, and so refuse the undefined value. -/
def validating : BoundReader := fun text =>
  match (Value.text text).asConfidence with
  | .ok x => .ok x
  | .error complaints => .error ((complaints.head?.map Complaint.kind).getD .notNumber).message

/-- The reader that makes a number of a text by `float` and refuses it only if it compares as less
than zero or more than one; `wording` says what is wrong with a text. -/
def comparing (float : String → Option Double) (wording : String → String) : BoundReader :=
  fun text =>
    match float text with
    | some x => if x.IsBelow .zero ∨ Double.one.IsBelow x then .error (wording text) else .ok x
    | none => .error (wording text)

end BoundReader

/-- What a command line asks for. -/
structure Invocation where
  overrides : Overrides
  /-- The file that is read instead of the project's own settings. -/
  config : Option String
  emoji : Bool
  debug : Bool
  noColor : Bool
  targets : List String
  deriving Repr

namespace Invocation

/-- The confidence that a text spells to the reader `bound`. -/
def confidence (bound : BoundReader) (text : String) : Except UsageError Double :=
  (bound text).mapError .badConfidence

/-- Looks at the value of one option. -/
def check (disk : Disk) (bound : BoundReader) (arguments : Arguments) (option : CommandOption) :
    Except UsageError Unit :=
  match option, arguments.value? option with
  | .minConfidence, some text => (confidence bound text).map fun _ => ()
  | .config, some path =>
    if '\x00' ∈ path.toList then .error (.configUnusable .embeddedNull)
    else if disk.isDirectory (Path.tidy path) then .error (.configIsDirectory path)
    else .ok ()
  | _, _ => .ok ()

/-- The rules that are switched, in the order of the command line. -/
def ruleSwitches (arguments : Arguments) : List RuleSwitch :=
  arguments.mentions.filterMap fun m => match m with
    | (.rule category, .switch on) => some (category, some on)
    | _ => none

/-- What a command line asks for, if its values make sense. -/
def ofArguments (disk : Disk) (bound : BoundReader) (arguments : Arguments) :
    Except UsageError Invocation := do
  arguments.options.forM (check disk bound arguments)
  let minConfidence ← (arguments.value? .minConfidence).mapM (confidence bound)
  return {
    overrides := {
      minConfidence := minConfidence.map .real
      setExitStatus := arguments.switch? .setExitStatus
      analyzer := arguments.value? .analyzer
      rules := ruleSwitches arguments }
    config := arguments.value? .config
    emoji := !arguments.has .noEmoji
    debug := arguments.has .debug
    noColor := arguments.has .noColor
    targets := arguments.targets }

end Invocation

end LintFront
