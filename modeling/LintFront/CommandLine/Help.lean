import LintFront.CommandLine.Option
import LintFront.Text.Wrap
/-!
# The help text

The help text is laid out for a terminal of eighty columns, whatever the terminal is. Options and
arguments are listed in two columns; the first is as wide as its widest entry but has a limit, and
an entry beyond the limit has its description on the next line.
-/

namespace LintFront.Help

/-- The greatest width of a line. -/
def pageWidth : Nat := 78

/-- The greatest width of the first column. -/
def columnLimit : Nat := 30

/-- Where all but headings starts. -/
def indentation : Nat := 2

/-- A line with blanks in front. -/
def indented (columns : Nat) (line : String) : String :=
  String.ofList (List.replicate columns ' ') ++ line

/-- A paragraph filled into lines. -/
def paragraph (text : String) : List String :=
  (Text.wrap (pageWidth - indentation) text).map (indented indentation)

/-- The text with blanks behind it up to a width. -/
def padded (width : Nat) (text : String) : String :=
  text ++ String.ofList (List.replicate (width - text.length) ' ')

/-- An entry of two columns, the second of which starts `width` columns after the first. -/
def entry (width : Nat) (left right : String) : List String :=
  let lines := Text.wrap (pageWidth - width - indentation) right
  if left.length + 2 ≤ width then
    match lines with
    | [] => [indented indentation left]
    | first :: more =>
      indented indentation (padded width left ++ first) ::
        more.map (indented (indentation + width))
  else indented indentation left :: lines.map (indented (indentation + width))

/-- A list of entries in two columns. -/
def columns (entries : List (String × String)) : List String :=
  let widest := (entries.map fun e => e.1.length).foldl max 0
  entries.flatMap fun e => entry (min widest columnLimit + 2) e.1 e.2

/-- An option as listed: its names, or its name and the sort of its value. -/
def spelling (option : CommandOption) : String :=
  match option.form with
  | .valued sort => option.name ++ " <" ++ sort ++ ">"
  | .plain => option.name
  | .twoSided => option.name ++ " / " ++ option.negation

/-- How the command is called. -/
def usage : String := "Usage: unitlint [OPTIONS] [targets]..."

/-- Where a user is sent who called the command in another way. -/
def hint : String := "Try 'unitlint --help' for help."

/-- What the command does. -/
def summary : String :=
  "Lint Python source files and print problems above the confidence threshold."

/-- The ways of calling the command. -/
def ways : List String :=
  ["unitlint [OPTIONS]  # runs on the package in the current directory",
    "unitlint [OPTIONS] [packages]",
    "unitlint [OPTIONS] [directories]  # where a '/...' suffix includes all sub-directories",
    "unitlint [OPTIONS] [files]  # all must belong to a single package"]

/-- The lines of the help text. -/
def lines : List String :=
  [usage, ""] ++ paragraph summary ++
    ["", "Arguments:"] ++
    columns [("targets... <list[str]>", "Directories, files, or packages to lint.")] ++
    ["", "Options:"] ++
    columns (CommandOption.all.map fun option => (spelling option, option.description)) ++
    ways.flatMap fun way => "" :: paragraph way

/-- The help text. -/
def text : String := "\n".intercalate lines

end LintFront.Help
