import LintFront.Engine.Basic
/-!
# The built-in engine

The engine that comes with the front end only checks that every file of a unit parses. It has no
findings of its own; a unit with files that do not parse is refused, with one description for each
of them. Which files parse is decided by a parser that the engine is given.
-/

namespace LintFront

/-- What a parser makes of a file. -/
inductive ParseOutcome where
  | parses
  /-- The file breaks the grammar; what is known of the place and the fault. -/
  | broken (line column : Option Int) (fault : Option String)
  /-- The file is no source text at all. -/
  | unusable (message : String)
  /-- The parser itself failed. -/
  | failed (message : String)
  deriving DecidableEq, Repr

/-- A parser for source files. -/
abbrev SourceParser := String → ByteArray → ParseOutcome

namespace SyntaxEngine

/-- The description of a file that does not parse (`_parse_problem`). A line or column that is not
known is zero. -/
def problem? (path : String) : ParseOutcome → Option String
  | .parses => none
  | .broken line column fault =>
    some (path ++ ":" ++ toString (line.getD 0) ++ ":" ++ toString (column.getD 0) ++ ": " ++
      fault.getD "None")
  | .unusable message => some (path ++ ": " ++ message)
  | .failed _ => none

/-- The failure of the parser on the first file that it fails on. -/
def failure? (outcomes : List (String × ParseOutcome)) : Option String :=
  outcomes.findSome? fun o => match o.2 with
    | .failed message => some message
    | _ => none

/-- What the engine makes of files by what the parser makes of them. -/
def verdict (outcomes : List (String × ParseOutcome)) : Verdict :=
  match failure? outcomes with
  | some message => .crashed message
  | none =>
    match outcomes.filterMap fun o => problem? o.1 o.2 with
    | [] => .findings []
    | problems => .refused ("; ".intercalate problems)

/-- The engine over a parser (`SyntaxAnalyzer.lint_files`). -/
def engine (parse : SourceParser) : Engine where
  name := "syntax"
  isBuiltIn := true
  inspect _ files _ := verdict (files.map fun f => (f.1, parse f.1 f.2))

end SyntaxEngine

end LintFront
