import LintFront.Proofs.Distinct
import LintFront.Proofs.FileTree.Access
import LintFront.Proofs.Run.Script
/-!
# The plan of a run

The arguments of a run name targets, and targets of one kind form a plan. There is always at least
one target, since without arguments the working directory is meant.

## Main statements

`Plan.ofArguments_eq_ok_iff`: targets form a plan when there are some and all are of one kind.
`Linter.script_eq`: the script of a run is that of its plan, after a message.
-/

namespace LintFront

namespace Plan

variable {disk : Disk} {args : List String}

/-! ## 1. Which arguments form a plan -/

/-- The kinds of the targets that arguments name, one for each argument. -/
def kindsOf (disk : Disk) (args : List String) : List TargetKind :=
  args.map fun arg => (Target.classify disk arg).kind

theorem kinds_classify (disk : Disk) (args : List String) :
    kinds (args.map (Target.classify disk)) = (kindsOf disk args).eraseDups := by
  rw [kinds, List.map_map]
  rfl

theorem ofArguments_eq (disk : Disk) (args : List String) :
    ofArguments disk args =
      match (kindsOf disk args).eraseDups with
      | [] => .error .noTargets
      | [kind] => .ok ⟨kind, args.map (Target.classify disk)⟩
      | several => .error (.mixedKinds several) := by
  rw [← kinds_classify]
  rfl

theorem mem_kindsOf {kind : TargetKind} :
    kind ∈ kindsOf disk args ↔ ∃ arg ∈ args, (Target.classify disk arg).kind = kind := by
  rw [kindsOf, List.mem_map]

/-- There is one kind when there is an argument and all of them are of this kind. -/
theorem eraseDups_kindsOf_eq_singleton_iff {kind : TargetKind} :
    (kindsOf disk args).eraseDups = [kind] ↔
      args ≠ [] ∧ ∀ arg ∈ args, (Target.classify disk arg).kind = kind := by
  constructor
  · intro hone
    constructor
    · rintro rfl
      cases hone
    · intro arg harg
      have hmem : (Target.classify disk arg).kind ∈ (kindsOf disk args).eraseDups :=
        List.mem_eraseDups.2 (mem_kindsOf.2 ⟨arg, harg, rfl⟩)
      rw [hone] at hmem
      exact List.mem_singleton.1 hmem
  · rintro ⟨hne, hkind⟩
    refine eraseDups_of_forall_eq (by simpa [kindsOf] using hne) ?_
    intro other hother
    obtain ⟨arg, harg, rfl⟩ := mem_kindsOf.1 hother
    exact hkind arg harg

/-- A plan has all targets in their order, and they are of its kind. -/
theorem ofArguments_eq_ok_iff {plan : Plan} :
    ofArguments disk args = .ok plan ↔
      args ≠ [] ∧ (∀ arg ∈ args, (Target.classify disk arg).kind = plan.kind) ∧
        plan.targets = args.map (Target.classify disk) := by
  rw [← and_assoc, ← eraseDups_kindsOf_eq_singleton_iff, ofArguments_eq]
  obtain ⟨kind, targets⟩ := plan
  rcases (kindsOf disk args).eraseDups with _ | ⟨first, _ | ⟨second, rest⟩⟩
  · simp
  · simp [eq_comm]
  · simp

end Plan

namespace Linter

variable {disk : Disk}

/-! ## 2. The targets of a run -/

/-- The targets of a run; without arguments the working directory is the one target. -/
def targetsOf (disk : Disk) (args : List String) : List Target :=
  (if args.isEmpty then ["."] else args).map (Target.classify disk)

theorem targetsOf_ne_nil (disk : Disk) (args : List String) : targetsOf disk args ≠ [] := by
  unfold targetsOf
  cases args <;> simp

/-- Targets of one kind form a plan of this kind. -/
theorem ofArguments_eq_ok {args : List String} {kind : TargetKind}
    (h : ∀ target ∈ targetsOf disk args, target.kind = kind) :
    Plan.ofArguments disk (if args.isEmpty then ["."] else args) =
      .ok ⟨kind, targetsOf disk args⟩ :=
  Plan.ofArguments_eq_ok_iff.2
    ⟨by simpa [targetsOf] using targetsOf_ne_nil disk args, List.forall_mem_map.1 h, rfl⟩

/-- The message with which a run over a plan begins. -/
def opening (plan : Plan) : String :=
  "run kind=" ++ plan.kind.plural ++ " targets=" ++ toString plan.targets.length

/-- The script of a run over targets of one kind is that of the plan, after a message. -/
theorem script_eq (linter : Linter) {args : List String} {kind : TargetKind}
    (h : ∀ target ∈ targetsOf disk args, target.kind = kind) :
    linter.script disk args =
      Script.andThen { moves := [.note (opening ⟨kind, targetsOf disk args⟩)] }
        (linter.scriptOfPlan disk ⟨kind, targetsOf disk args⟩) := by
  rw [script, ofArguments_eq_ok h]
  rfl

/-- An argument without the marker that leads nowhere names a package. -/
theorem classify_of_node_eq_error {arg : String} {cause : AccessError}
    (hmarker : hasMarker arg = false) (h : disk.node arg = .error cause) :
    Target.classify disk arg = ⟨arg, .package, false⟩ := by
  have hdirectory : disk.isDirectory arg = false := by rw [Disk.isDirectory, h]
  have hholds : disk.holds arg = false := by rw [Disk.holds, h]
  rw [Target.classify, hmarker, hdirectory, hholds]
  rfl

/-- An argument without the marker that leads to a directory names this directory. -/
theorem classify_of_node_eq_directory {arg : String} {entries : Entries Node}
    (hmarker : hasMarker arg = false) (h : disk.node arg = .ok (.directory entries)) :
    Target.classify disk arg = ⟨arg, .directory, false⟩ := by
  have hdirectory : disk.isDirectory arg = true := Disk.isDirectory_iff.2 ⟨entries, h⟩
  rw [Target.classify, hmarker, hdirectory]
  rfl

/-- An argument with the marker names a directory and all below it, if it leads to one without. -/
theorem classify_of_hasMarker {arg : String} {entries : Entries Node}
    (hmarker : hasMarker arg = true) (h : disk.node (stripMarker arg) = .ok (.directory entries)) :
    Target.classify disk arg = ⟨arg, .directory, true⟩ := by
  have hdirectory : disk.isDirectory (stripMarker arg) = true := Disk.isDirectory_iff.2 ⟨entries, h⟩
  rw [Target.classify, hmarker, hdirectory]
  rfl

/-- A target of the kind of files leads somewhere. -/
theorem nullFree_of_kind_eq_file {target : Target} {args : List String}
    (htarget : target ∈ targetsOf disk args) (h : target.kind = .file) :
    Path.NullFree target.raw := by
  obtain ⟨arg, -, rfl⟩ := List.mem_map.1 htarget
  rw [Target.raw_classify]
  unfold Target.classify at h
  -- Only an argument that leads somewhere is of the kind of files.
  split at h
  · cases h
  split at h
  · cases h
  split at h
  · rename_i hholds
    rw [Disk.holds] at hholds
    split at hholds
    · rename_i node hnode
      exact Disk.nullFree_of_node hnode
    · cases hholds
  · cases h

end Linter

end LintFront
