import LintFront.Console.Highlight
/-!
# Writing to the terminal

Findings go to the standard output as they are, everything else to the error stream. On a terminal
with colour, failures are red, warnings yellow, and debug messages are highlighted. Without colour
there are no escape sequences at all, and what is not a terminal never gets one.

Text for the error stream loses the control characters that would move the cursor, and its tabs
become blanks. Text for the standard output keeps everything but, away from a terminal, sequences
that set styles.
-/

namespace LintFront

/-- How the streams are written. -/
structure Console where
  /-- May messages start with a symbol? -/
  emoji : Bool
  /-- Are debug messages written? -/
  debug : Bool
  /-- Are the streams a terminal? -/
  tty : Bool
  /-- Are failures and warnings coloured? None leaves it to the terminal. -/
  messageColor : Option Bool
  /-- Are debug messages highlighted on a terminal? -/
  debugColor : Bool
  deriving DecidableEq, Repr

namespace Console

/-- The console of a run with the given switches (`build_cli_logger`). -/
def ofSwitches (emoji debug noColor tty : Bool) : Console where
  emoji := emoji
  debug := debug
  tty := tty
  messageColor := if noColor then some false else none
  debugColor := !noColor

/-! ## 1. Styled lines -/

/-- A piece of text with the codes of its style, none for plain text. -/
abbrev Styled := String × List Char

/-- Characters that a message loses. -/
def isDropped (c : Char) : Bool :=
  c.toNat = 7 || c.toNat = 8 || c.toNat = 11 || c.toNat = 12 || c.toNat = 13

/-- A line with a piece in front; an empty piece is left out. -/
def putPiece (style : String) (s : List Char) (line : List Styled) : List Styled :=
  if s.isEmpty then line else (style, s) :: line

/-- Puts texts of one style in front of some lines: each text but the last is a line of its own, and
the last one belongs to the first of the lines. -/
def pour (style : String) : List (List Char) → List (List Styled) → List (List Styled)
  | [], lines => lines
  | [s], line :: lines => putPiece style s line :: lines
  | [s], [] => [putPiece style s []]
  | s :: rest, lines => putPiece style s [] :: pour style rest lines

/-- The lines of styled pieces. -/
def linesOf (pieces : List Styled) : List (List Styled) :=
  pieces.foldr (fun p lines => pour p.1 ((p.2.filter fun c => !isDropped c).splitOn '\n') lines)
    [[]]

/-! ## 2. Tabs

A tab becomes blanks up to the next multiple of eight columns. The columns of a text are measured
from the last tab on, whatever styles the text has. The blanks belong to the piece of the tab, and
the piece ends behind them.
-/

/-- How many columns a character takes. A control character takes none. -/
def columnsOf (c : Char) : Nat := if Text.isControl c then 0 else 1

/-- How many columns a text takes. -/
def columns (s : List Char) : Nat := s.foldl (fun n c => n + columnsOf c) 0

/-- A place in a line. -/
structure Place where
  /-- The column behind the last tab. -/
  stop : Nat := 0
  /-- What stands behind the last tab, its last character first. -/
  behind : List Char := []
  deriving DecidableEq, Repr

section Rendering

variable (width : List Char → Nat)

/-- The column behind a tab that counts as a single blank. -/
def Place.column (place : Place) : Nat := place.stop + width (place.behind.reverse ++ [' '])

/-- How many columns a tab takes beyond the first. -/
def Place.gap (place : Place) : Nat := (8 - place.column width % 8) % 8

/-- The place behind a character. -/
def Place.after (place : Place) (c : Char) : Place :=
  if c = '\t' then { stop := place.column width + place.gap width }
  else { place with behind := c :: place.behind }

/-- What is written for a character. -/
def Place.shown (place : Place) (c : Char) : List Char :=
  if c = '\t' then List.replicate (1 + place.gap width) ' ' else [c]

/-- A text with blanks for its tabs. -/
def expandTabs : Place → List Char → List Char
  | _, [] => []
  | place, c :: rest => place.shown width c ++ expandTabs (place.after width c) rest

/-- The pieces of a line, cut behind every tab. -/
def cutAtTabs (line : List Styled) : List Styled :=
  line.flatMap fun piece => (piece.2.splitBy fun c _ => c != '\t').map (piece.1, ·)

/-- Pieces with blanks for their tabs. -/
def expandPieces : Place → List Styled → List Styled
  | _, [] => []
  | place, piece :: rest =>
    (piece.1, expandTabs width place piece.2) ::
      expandPieces (piece.2.foldl (Place.after width) place) rest

/-! ## 3. Colours -/

/-- The escape character, which starts the sequences that set a style. -/
def escapeChar : Char := '\x1b'

/-- A piece between the sequences that set and reset its style. -/
def paint (piece : Styled) : List Char :=
  escapeChar :: '[' :: piece.1.toList ++ 'm' :: piece.2 ++ [escapeChar, '[', '0', 'm']

/-- A line as written. -/
def renderLine (coloured : Bool) (line : List Styled) : List Char :=
  (expandPieces width {} (cutAtTabs line)).flatMap (if coloured then paint else (·.2)) ++ ['\n']

/-- Styled pieces as written, every line with its newline. -/
def render (coloured : Bool) (pieces : List Styled) : String :=
  String.ofList ((linesOf pieces).flatMap (renderLine width coloured))

/-- A text of no style as written. -/
def unstyled (message : String) : String := render width false [("", message.toList)]

end Rendering

/-! ## 4. Messages -/

/-- Are failures and warnings coloured? -/
def coloursMessages (console : Console) : Bool := console.tty && console.messageColor ≠ some false

/-- A message with its symbol. -/
def marked (console : Console) (symbol message : String) : List Char :=
  (if console.emoji then symbol.toList else []) ++ message.toList

/-- A failure as written to the error stream (`CLILogger.fail`). -/
def failure (console : Console) (message : String) : String :=
  render columns console.coloursMessages [("31", console.marked "❌ " message)]

/-- A warning as written to the error stream (`CLILogger.warn`). -/
def warning (console : Console) (message : String) : String :=
  render columns console.coloursMessages [("33", console.marked "⚠️ " message)]

/-- The style of a segment of a debug message. -/
def partStyle : Part → String
  | .prose => "1;2;36"
  | .key => "1;35"
  | .equals => "1;2;36"
  | .value => "1;32"

/-- The pieces of a debug message. -/
def debugPieces (message : String) : List Styled :=
  ("1;36", "[debug] ".toList) :: (highlight message.toList).map fun p => (partStyle p.1, p.2)

/-- Are debug messages coloured? -/
def coloursNotes (console : Console) : Bool := console.tty && console.debugColor

/-- A debug message as written to the error stream, where texts are as wide as given
(`CLILogger.debug`). -/
def debuggingBy (width : List Char → Nat) (console : Console) (message : String) : String :=
  if console.debug then render width console.coloursNotes (debugPieces message) else ""

/-- A debug message as written to the error stream. -/
def debugging (console : Console) (message : String) : String :=
  console.debuggingBy columns message

/-- May `c` stand among the parameters of a styling sequence? -/
def isStyleParameter (c : Char) : Bool := ('0' ≤ c && c ≤ '9') || c = ';' || c = '?'

/-- Drops the styling sequences of a text: the escape character, a bracket, parameters and a
letter. -/
def stripStyles : (fuel : Nat) → List Char → List Char
  | 0, s => s
  | _ + 1, [] => []
  | fuel + 1, c :: rest =>
    if c = escapeChar && rest.head? = some '[' then
      match (rest.drop 1).dropWhile isStyleParameter with
      | d :: after =>
        if d.isAlpha then stripStyles fuel after else c :: stripStyles fuel rest
      | [] => c :: stripStyles fuel rest
    else c :: stripStyles fuel rest

/-- A text without its styling sequences. -/
def stripped (s : List Char) : List Char := stripStyles s.length s

@[inherit_doc stripped]
def withoutStyles (message : String) : String := String.ofList (stripped message.toList)

/-- A line of text as written to the standard output, or unstyled to the error stream
(`CLILogger.echo`). -/
def echoed (console : Console) (message : String) : String :=
  (if console.tty then message else withoutStyles message) ++ "\n"

/-! ## 5. Terminals -/

/-- What is known of a stream. -/
inductive StreamKind where
  | terminal
  | plain
  /-- It cannot tell whether it is a terminal. -/
  | mute
  | closed
  deriving DecidableEq, Repr

/-- Is the stream taken for a terminal (`detect_tty`)? Only one that says so is. -/
def StreamKind.isTerminal : StreamKind → Bool
  | terminal => true
  | _ => false

end Console

end LintFront
