import LintFront.Run.Journal
import LintFront.Run.Reading
/-!
# Linting one unit

A unit is read, given to the engine, and reported. Paths that cannot be read are reported and left
out; a unit of which nothing can be read is not given to the engine at all. Of the findings those
are printed that are sure enough, in the order in which the engine gave them.
-/

namespace LintFront

/-- What is needed to lint units. -/
structure Reporter where
  engine : Engine
  rules : RuleSelection
  /-- Findings less sure than this are not printed. -/
  minConfidence : Number

/-- A unit as it is linted: what it is called in messages, and its paths (`CompilationUnit`). -/
structure Batch where
  label : String
  paths : List String
  deriving DecidableEq, Repr

namespace Batch

/-- The batch of paths under a label, each path once (`CompilationUnit.from_paths`). -/
def ofPaths (label : String) (paths : List String) : Batch := ⟨label, paths.eraseDups⟩

end Batch

namespace Reporter

/-- Prints a finding and counts it. -/
def print (finding : Finding) : Run Unit := do
  Run.record (.printed finding)
  Run.countFinding

/-- Prints the findings that are sure enough, and tells how many they are. -/
def printAll (reporter : Reporter) (found : List Finding) : Run Nat := do
  let shown := found.filter fun f => f.meets reporter.minConfidence
  shown.forM print
  return shown.length

/-- Gives files to the engine and prints what it finds. The engine's turn is what the tally says
before the unit is counted. -/
def inspect (reporter : Reporter) (sources : Sources) : Run Nat := do
  let turn := (← get).tally.units
  Run.countUnit
  Run.record (.inspected reporter.engine sources reporter.rules)
  match reporter.engine.inspect turn sources reporter.rules with
  | .findings found => reporter.printAll found
  | .refused message =>
    Run.record (.failed message)
    return 0
  | .crashed message => throw (.crash message)

/-- Lints a batch and tells how many findings were printed (`Reporter.lint`). -/
def lint (reporter : Reporter) (disk : Disk) (batch : Batch) : Run Nat := do
  match Reading.ofPaths disk batch.paths with
  | .error fault => throw (.fault fault)
  | .ok reading =>
    reading.failures.forM fun f => Run.record (.failed (Reading.describe f))
    if reading.sources.isEmpty then
      Run.record (.noted ("unit=" ++ batch.label ++ " skipped=no-readable-files"))
      return 0
    else reporter.inspect reading.sources

end Reporter

end LintFront
