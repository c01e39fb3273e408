import LintFront.Run.Report
import LintFront.Package.Unit
/-!
# Linting targets

The targets of a run are of one kind. Directories and packages are first expanded to the list of
units, in which each occurs once, and then linted one by one; files together form one unit. A target
that forms no unit is reported, or passed over if it merely holds no source files, and the others
are linted all the same.
-/

namespace LintFront

/-- What governs the units of a run: where packages are searched besides the working directory,
which directories are skipped, and how units are reported (`Orchestrator`). -/
structure Linter where
  search : List String := []
  excludes : List String := []
  reporter : Reporter

namespace Linter

/-- The label of the unit that given files form. -/
def filesLabel : String := "<files>"

/-- The directories that a target stands for. -/
def directoriesOf (disk : Disk) (excludes : List String) (target : Target) :
    Except Fault (List String) :=
  if target.recursive then Directory.expand disk excludes target.path else .ok [target.path]

/-- The directories that targets stand for, in their normal spelling, each once
(`Orchestrator.expand_directories`). -/
def expandDirectories (disk : Disk) (excludes : List String) (targets : List Target) :
    Except Fault (List String) := do
  let expanded ← targets.mapM (directoriesOf disk excludes)
  return (expanded.flatten.map Path.normal).eraseDups

/-- The specifiers that one argument stands for; one that cannot be expanded is reported. -/
def packagesOf (linter : Linter) (disk : Disk) (text : String) : Run (List String) :=
  match Package.expand disk linter.search linter.excludes text "." with
  | .ok specifiers => return specifiers
  | .error (.noUnit error) => do
    Run.record (.failed error.message)
    return []
  | .error (.fault fault) => throw (.fault fault)

/-- The specifiers that arguments stand for, each once (`Orchestrator.expand_packages`). -/
def expandPackages (linter : Linter) (disk : Disk) (texts : List String) : Run (List String) := do
  let expanded ← texts.mapM (linter.packagesOf disk)
  return expanded.flatten.eraseDups

/-- Lints the unit that a target forms, or reports why it forms none
(`Orchestrator._lint_resolved`). -/
def lintUnit (linter : Linter) (disk : Disk) : Except Trouble SourceUnit → Run Unit
  | .error (.fault fault) => throw (.fault fault)
  | .error (.noUnit (.noSources place)) =>
    Run.record (.noted ("skipped=" ++ place ++ " reason=no-sources"))
  | .error (.noUnit error) => Run.record (.failed error.message)
  | .ok unit => do
    let files := unit.files
    if files.isEmpty then return ()
    Run.record (.noted ("unit=" ++ unit.name ++ " dir=" ++ unit.directory ++ " files=" ++
      toString files.length))
    let _ ← linter.reporter.lint disk (.ofPaths unit.name files)

/-- Lints directories (`Orchestrator._lint_directories`). -/
def lintDirectories (linter : Linter) (disk : Disk) (targets : List Target) : Run Unit := do
  match expandDirectories disk linter.excludes targets with
  | .error fault => throw (.fault fault)
  | .ok directories => directories.forM fun d => linter.lintUnit disk (Directory.unit disk d)

/-- Lints packages (`Orchestrator._lint_packages`). -/
def lintPackages (linter : Linter) (disk : Disk) (texts : List String) : Run Unit := do
  let specifiers ← linter.expandPackages disk texts
  specifiers.forM fun s => linter.lintUnit disk (Package.unit disk linter.search s ".")

/-- Lints files as one unit (`Orchestrator._lint_files`). -/
def lintFiles (linter : Linter) (disk : Disk) (paths : List String) : Run Unit := do
  let _ ← linter.reporter.lint disk (.ofPaths filesLabel paths)

/-- Lints the targets of a plan. -/
def lintPlan (linter : Linter) (disk : Disk) (plan : Plan) : Run Unit :=
  match plan.kind with
  | .directory => linter.lintDirectories disk plan.targets
  | .file => linter.lintFiles disk plan.arguments
  | .package => linter.lintPackages disk plan.arguments

/-- Lints what the arguments name (`Orchestrator.run`); no arguments name the working directory. -/
def run (linter : Linter) (disk : Disk) (args : List String) : Run Unit := do
  match Plan.ofArguments disk (if args.isEmpty then ["."] else args) with
  | .error error => throw (.plan error)
  | .ok plan =>
    Run.record (.noted ("run kind=" ++ plan.kind.plural ++ " targets=" ++
      toString plan.targets.length))
    linter.lintPlan disk plan

end Linter

end LintFront
