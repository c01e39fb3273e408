import LintFront.FileTree.Disk
/-!
# Targets

What the user wants linted is given as a list of arguments. Each names a directory, a file or a
package, and all of them have to be of one kind. A marker at the end of a directory or package asks
for everything below it as well.

An argument is tried in this order: a directory once its marker is taken off, a directory as it
stands, anything that exists, and else a package. So a directory whose own name is the marker's dots
can still be named.

Here and in all modules, a name in parentheses in the first sentence about a definition is that of
the item of the linter for which the definition stands.
-/

namespace LintFront

/-- The end of an argument that stands for a place and all below it (`RECURSIVE_MARKER`). -/
def recursiveMarker : String := "/..."

/-- Does the argument ask for all below it (`has_recursive_marker`)? -/
def hasMarker (arg : String) : Bool := Text.hasEnding arg recursiveMarker

/-- The argument without its marker (`strip_recursive_marker`). -/
def stripMarker (arg : String) : String :=
  if hasMarker arg then Text.dropLast recursiveMarker.toList.length arg else arg

/-- What an argument names. -/
inductive TargetKind where
  | directory
  | file
  | package
  deriving DecidableEq, Repr

namespace TargetKind

/-- The word for one target of the kind. -/
def name : TargetKind → String
  | directory => "directory"
  | file => "file"
  | package => "package"

/-- The word for a run over targets of the kind. -/
def plural : TargetKind → String
  | directory => "directories"
  | file => "files"
  | package => "packages"

end TargetKind

/-- An argument with what it names. -/
structure Target where
  /-- The argument as given. -/
  raw : String
  kind : TargetKind
  /-- Does it name a directory and all below it? -/
  recursive : Bool := false
  deriving DecidableEq, Repr

namespace Target

/-- The place that the target names. -/
def path (target : Target) : String :=
  if target.recursive then stripMarker target.raw else target.raw

/-- What an argument names on a disk (`classify_target`). -/
def classify (disk : Disk) (arg : String) : Target :=
  if hasMarker arg && disk.isDirectory (stripMarker arg) then ⟨arg, .directory, true⟩
  else if disk.isDirectory arg then ⟨arg, .directory, false⟩
  else if disk.holds arg then ⟨arg, .file, false⟩
  else ⟨arg, .package, false⟩

@[simp] theorem raw_classify (disk : Disk) (arg : String) : (classify disk arg).raw = arg := by
  unfold classify
  split
  · rfl
  split
  · rfl
  split <;> rfl

end Target

/-- Why arguments form no plan (`TargetUsageError`). -/
inductive PlanError where
  | noTargets
  /-- The kinds that occur, in the order of their first occurrence. -/
  | mixedKinds (kinds : List TargetKind)
  deriving DecidableEq, Repr

namespace PlanError

/-- The wording of a reason. -/
def message : PlanError → String
  | noTargets => "no targets supplied"
  | mixedKinds kinds =>
    "cannot mix target kinds (" ++ ", ".intercalate (kinds.map TargetKind.name) ++
      "); pass only directories, only files, or only packages"

end PlanError

/-- Targets of one kind (`RunPlan`). -/
structure Plan where
  kind : TargetKind
  targets : List Target
  deriving DecidableEq, Repr

namespace Plan

/-- The arguments of the plan as given. -/
def arguments (plan : Plan) : List String := plan.targets.map Target.raw

/-- The kinds that occur among targets, in the order of their first occurrence. -/
def kinds (targets : List Target) : List TargetKind := (targets.map Target.kind).eraseDups

/-- The plan for a list of arguments (`plan_targets`). -/
def ofArguments (disk : Disk) (args : List String) : Except PlanError Plan :=
  let targets := args.map (Target.classify disk)
  match kinds targets with
  | [] => .error .noTargets
  | [kind] => .ok ⟨kind, targets⟩
  | several => .error (.mixedKinds several)

end Plan

end LintFront
