import LintFront.Rule
/-!
# Options of the command line

The command line is a list of arguments. Options start with a dash and may stand anywhere between
the targets; a lone double dash ends them. What an option is called, what form it has and what is
said about it in the help text is one table, from which both the reader of the command line and the
help text are made.

Reading only takes the command line apart. Whether the values make sense is looked at later, so a
misspelt option is reported before a bad value.

## Main statements

`Arguments.read_targets`: arguments that do not look like options are targets, in order.
-/

namespace LintFront

/-- What can be chosen on the command line. -/
inductive CommandOption where
  | minConfidence
  | setExitStatus
  | analyzer
  | config
  | noColor
  | noEmoji
  | debug
  | rule (category : RuleCategory)
  | help
  deriving DecidableEq, Repr

/-- The form of an option. -/
inductive OptionForm where
  /-- A value follows; the text says of what sort. -/
  | valued (sort : String)
  /-- The option is given or not. -/
  | plain
  /-- The option switches something on and has a negation that switches it off. -/
  | twoSided
  deriving DecidableEq, Repr

namespace CommandOption

/-- All options in the order in which they are listed to the user. -/
def all : List CommandOption :=
  [.minConfidence, .setExitStatus, .analyzer, .config, .noColor, .noEmoji, .debug] ++
    RuleCategory.all.map .rule ++ [.help]

/-- The name of an option without its dashes. -/
def stem : CommandOption → String
  | minConfidence => "min-confidence"
  | setExitStatus => "set-exit-status"
  | analyzer => "analyzer"
  | config => "config"
  | noColor => "no-color"
  | noEmoji => "no-emoji"
  | debug => "debug"
  | rule category => category.flag
  | help => "help"

/-- The name of an option. -/
def name (option : CommandOption) : String := "--" ++ option.stem

/-- The name that switches a two-sided option off. -/
def negation (option : CommandOption) : String := "--no-" ++ option.stem

def form : CommandOption → OptionForm
  | minConfidence => .valued "float range"
  | analyzer => .valued "str"
  | config => .valued "file"
  | setExitStatus => .twoSided
  | rule _ => .twoSided
  | noColor => .plain
  | noEmoji => .plain
  | debug => .plain
  | help => .plain

/-- What the help text says about an option. -/
def description : CommandOption → String
  | minConfidence =>
    "Minimum confidence of a problem to print it.  [default: 0.8]  [0.0<=x<=1.0]"
  | setExitStatus => "Set exit status to 1 if any issues are found."
  | analyzer => "Analysis engine to run.  [default: syntax]"
  | config => "Configuration file used instead of .unitlint.toml."
  | noColor => "Disable ANSI colour output."
  | noEmoji => "Disable emoji in messages."
  | debug => "Print debug output to stderr."
  | rule category => category.description
  | help => "Show this message and exit."

end CommandOption

/-- What is said about an option: a value, or that it is on or off. -/
inductive Mention where
  | value (text : String)
  | switch (on : Bool)
  deriving DecidableEq, Repr

/-- What a name on the command line stands for: the option, and the switch that it is turned to if
it takes no value. -/
structure Spelling where
  option : CommandOption
  switch? : Option Bool
  deriving DecidableEq, Repr

namespace Spelling

/-- The names of one option. -/
def ofOption (option : CommandOption) : List (String × Spelling) :=
  match option.form with
  | .valued _ => [(option.name, ⟨option, none⟩)]
  | .plain => [(option.name, ⟨option, some true⟩)]
  | .twoSided => [(option.name, ⟨option, some true⟩), (option.negation, ⟨option, some false⟩)]

/-- What a name stands for, if it is the name of an option. -/
def find? (name : String) : Option Spelling :=
  ((CommandOption.all.flatMap ofOption).find? fun e => e.1 = name).map (·.2)

end Spelling

/-- Why a command line cannot be taken apart. -/
inductive ArgumentError where
  | noSuchOption (name : String)
  | requiresArgument (name : String)
  | takesNoValue (name : String)
  deriving DecidableEq, Repr

/-- A command line taken apart: what is said about options, in order, and the targets. -/
structure Arguments where
  mentions : List (CommandOption × Mention) := []
  targets : List String := []
  deriving DecidableEq, Repr

namespace Arguments

/-- Does an argument look like an option? A lone dash does not. -/
def isDashed (arg : String) : Bool :=
  match arg.toList with
  | '-' :: _ :: _ => true
  | _ => false

/-- An argument cut at its first equals sign: the name, and the value if there is one. -/
def cut (arg : String) : String × Option String :=
  match arg.toList.dropWhile (· ≠ '=') with
  | [] => (arg, none)
  | _ :: value => (String.ofList (arg.toList.takeWhile (· ≠ '=')), some (String.ofList value))

/-- The name under which an option that does not exist is reported. After a single dash it is one
letter long. -/
def reported (arg : String) : String :=
  if arg.startsWith "--" then (cut arg).1 else String.ofList (arg.toList.take 2)

/-- Adds a target in front. -/
def addTarget (arg : String) (arguments : Arguments) : Arguments :=
  { arguments with targets := arg :: arguments.targets }

/-- Adds what is said about an option in front. -/
def addMention (option : CommandOption) (mention : Mention) (arguments : Arguments) : Arguments :=
  { arguments with mentions := (option, mention) :: arguments.mentions }

/-- Reads the rest of a command line. If a name and its option are `pending`, the next argument is
their value, whatever it looks like. -/
def readFrom : (pending : Option (String × CommandOption)) → List String →
    Except ArgumentError Arguments
  | none, [] => .ok {}
  | some (name, _), [] => .error (.requiresArgument name)
  | some (_, option), text :: rest => (readFrom none rest).map (addMention option (.value text))
  | none, arg :: rest =>
    if arg = "--" then .ok { targets := rest }
    else if !isDashed arg then (readFrom none rest).map (addTarget arg)
    else
      let (name, value) := cut arg
      match Spelling.find? name, value with
      | none, _ => .error (.noSuchOption (reported arg))
      | some ⟨_, some _⟩, some _ => .error (.takesNoValue name)
      | some ⟨option, some on⟩, none => (readFrom none rest).map (addMention option (.switch on))
      | some ⟨option, none⟩, some text =>
        (readFrom none rest).map (addMention option (.value text))
      | some ⟨option, none⟩, none => readFrom (some (name, option)) rest

/-- Reads a command line. -/
def read (args : List String) : Except ArgumentError Arguments := readFrom none args

/-- Arguments that do not look like options are targets. -/
theorem read_targets {args : List String} (h : ∀ arg ∈ args, isDashed arg = false) :
    read args = .ok { targets := args } := by
  induction args with
  | nil => rfl
  | cons arg rest ih =>
    have harg := h arg (by simp)
    have hne : arg ≠ "--" := by
      rintro rfl
      exact absurd harg (by decide)
    have hrest := ih fun a ha => h a (by simp [ha])
    simp only [read] at hrest ⊢
    simp [readFrom, hne, harg, hrest, Except.map, addTarget]

/-- The last value that is given to an option. -/
def value? (arguments : Arguments) (option : CommandOption) : Option String :=
  arguments.mentions.reverse.findSome? fun m => match m with
    | (o, .value text) => if o = option then some text else none
    | _ => none

/-- The last switch that is given to an option. -/
def switch? (arguments : Arguments) (option : CommandOption) : Option Bool :=
  arguments.mentions.reverse.findSome? fun m => match m with
    | (o, .switch on) => if o = option then some on else none
    | _ => none

/-- Is an option given at all? -/
def has (arguments : Arguments) (option : CommandOption) : Bool :=
  arguments.mentions.any fun m => m.1 = option

/-- The options that are given, each once, in the order of their first mention. -/
def options (arguments : Arguments) : List CommandOption :=
  (arguments.mentions.map (·.1)).eraseDups

end Arguments

end LintFront
