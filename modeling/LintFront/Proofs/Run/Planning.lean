import LintFront.Proofs.FileTree.Rewriting
import LintFront.Proofs.Run.Endings
import LintFront.Proofs.Run.Targets
/-!
# Targets of several kinds

The kinds of the targets that arguments name are collected in the order in which they are first met.
So the order of the arguments shows in the reason why there is no plan, but it does not decide
whether there is one.

A run makes its plan before it does anything else. To classify an argument is to ask what kind of
thing lies at a path, and that does not hang on what any file holds. So a run without a plan ends
with the journal with which it began, and it would end in the same way if every file held something
else.

## Main statements

`Plan.ofArguments_eq_mixedKinds_iff`: what is said of targets of several kinds.
`Linter.mixture_rejected`: a run over them ends before anything is done.
-/

namespace LintFront

namespace Plan

variable {disk : Disk} {args : List String}

/-! ## 1. Why there is no plan -/

theorem ofArguments_eq_noTargets_iff : ofArguments disk args = .error .noTargets ↔ args = [] := by
  rw [ofArguments_eq]
  cases args with
  | nil => exact ⟨fun _ => rfl, fun _ => rfl⟩
  | cons arg args =>
    have hmem : (Target.classify disk arg).kind ∈ (kindsOf disk (arg :: args)).eraseDups :=
      List.mem_eraseDups.2 List.mem_cons_self
    rcases hkinds : (kindsOf disk (arg :: args)).eraseDups with _ | ⟨first, _ | ⟨second, rest⟩⟩
    · rw [hkinds] at hmem
      cases hmem
    · simp
    · simp

/-- Targets of several kinds form no plan, and the reason names the kinds in the order in which they
are first met. -/
theorem ofArguments_eq_mixedKinds_iff {several : List TargetKind} :
    ofArguments disk args = .error (.mixedKinds several) ↔
      (∃ arg ∈ args, ∃ other ∈ args,
        (Target.classify disk arg).kind ≠ (Target.classify disk other).kind) ∧
      IsFirstsOf several (kindsOf disk args) := by
  have hfirsts := isFirstsOf_eraseDups (kindsOf disk args)
  rw [isFirstsOf_iff, ofArguments_eq]
  rcases hkinds : (kindsOf disk args).eraseDups with _ | ⟨first, _ | ⟨second, rest⟩⟩
  · -- Without kinds there are no arguments.
    have hnone : ∀ arg, arg ∉ args := fun arg harg => by
      have hmem := (hfirsts.mem_iff _).2 (mem_kindsOf.2 ⟨arg, harg, rfl⟩)
      rw [hkinds] at hmem
      cases hmem
    simp [hnone]
  · obtain ⟨-, hall⟩ := eraseDups_kindsOf_eq_singleton_iff.1 hkinds
    simp +contextual [hall]
  · rw [hkinds] at hfirsts
    obtain ⟨arg, harg, hfirst⟩ := mem_kindsOf.1 ((hfirsts.mem_iff first).1 (by simp))
    obtain ⟨other, hother, hsecond⟩ := mem_kindsOf.1 ((hfirsts.mem_iff second).1 (by simp))
    have hne : first ≠ second := by
      have hnodup := hfirsts.nodup
      simp only [List.nodup_cons, List.mem_cons, not_or] at hnodup
      exact hnodup.1.1
    have hmixed : ∃ arg ∈ args, ∃ other ∈ args,
        (Target.classify disk arg).kind ≠ (Target.classify disk other).kind :=
      ⟨arg, harg, other, hother, by rwa [hfirst, hsecond]⟩
    simp only [Except.error.injEq, PlanError.mixedKinds.injEq, hmixed, true_and, eq_comm]

/-! ## 2. The order of arguments -/

/-- Two outcomes of planning are the same up to the order of targets, and of kinds where there are
several. -/
inductive SameUpToOrder : Except PlanError Plan → Except PlanError Plan → Prop where
  | plan (kind : TargetKind) {targets targets' : List Target} (h : targets.Perm targets') :
      SameUpToOrder (.ok ⟨kind, targets⟩) (.ok ⟨kind, targets'⟩)
  | noTargets : SameUpToOrder (.error .noTargets) (.error .noTargets)
  | mixedKinds {several several' : List TargetKind} (h : several.Perm several') :
      SameUpToOrder (.error (.mixedKinds several)) (.error (.mixedKinds several'))

theorem sameUpToOrder_of_perm {args' : List String} (h : args.Perm args') :
    SameUpToOrder (ofArguments disk args) (ofArguments disk args') := by
  rcases hplan : ofArguments disk args with (_ | several) | ⟨kind, targets⟩
  · obtain rfl := ofArguments_eq_noTargets_iff.1 hplan
    rw [ofArguments_eq_noTargets_iff.2 h.nil_eq.symm]
    exact .noTargets
  · obtain ⟨⟨arg, harg, other, hother, hne⟩, hfirsts⟩ := ofArguments_eq_mixedKinds_iff.1 hplan
    obtain rfl := isFirstsOf_iff.1 hfirsts
    have hplan' : ofArguments disk args' = .error (.mixedKinds (kindsOf disk args').eraseDups) :=
      ofArguments_eq_mixedKinds_iff.2
        ⟨⟨arg, h.mem_iff.1 harg, other, h.mem_iff.1 hother, hne⟩, isFirstsOf_eraseDups _⟩
    rw [hplan']
    exact .mixedKinds (perm_eraseDups fun kind => (h.map _).mem_iff)
  · obtain ⟨hne, hkind, htargets⟩ := ofArguments_eq_ok_iff.1 hplan
    obtain rfl : targets = args.map (Target.classify disk) := htargets
    have hplan' : ofArguments disk args' = .ok ⟨kind, args'.map (Target.classify disk)⟩ := by
      refine ofArguments_eq_ok_iff.2 ⟨?_, fun arg harg => hkind arg (h.mem_iff.2 harg), rfl⟩
      rintro rfl
      exact hne h.eq_nil
    rw [hplan']
    exact .plan kind (h.map _)

/-! ## 3. What is asked of the disk -/

/-- An argument names the same on disks that look alike. -/
theorem classify_eq_of_alike {other : Disk} (h : disk.Alike other) (arg : String) :
    Target.classify other arg = Target.classify disk arg := by
  rw [Target.classify, Target.classify, h.isDirectory_eq, h.isDirectory_eq, h.holds_eq]

theorem ofArguments_eq_of_alike {other : Disk} (h : disk.Alike other) (args : List String) :
    ofArguments other args = ofArguments disk args := by
  have hclassify : Target.classify other = Target.classify disk :=
    funext fun arg => classify_eq_of_alike h arg
  rw [ofArguments, ofArguments, hclassify]

end Plan

namespace Linter

variable {disk : Disk} {args : List String}

/-! ## 4. Runs without a plan -/

/-- A run ends for several kinds of targets exactly when its arguments are of several kinds, and
then with the journal with which it began. -/
theorem run_eq_mixedKinds_iff (linter : Linter) {several : List TargetKind}
    {journal later : Journal} :
    (linter.run disk args).runOn journal = (.error (.plan (.mixedKinds several)), later) ↔
      Plan.ofArguments disk args = .error (.mixedKinds several) ∧ later = journal := by
  have hdefault : Plan.ofArguments disk (if args.isEmpty then ["."] else args) =
      .error (.mixedKinds several) ↔ Plan.ofArguments disk args = .error (.mixedKinds several) := by
    cases args with
    | nil =>
      -- The working directory alone is one target, and no arguments at all are another reason.
      rw [Plan.ofArguments_eq_mixedKinds_iff, Plan.ofArguments_eq_mixedKinds_iff]
      simp
    | cons arg args => rfl
  rw [← hdefault]
  cases hplan : Plan.ofArguments disk (if args.isEmpty then ["."] else args) with
  | error error =>
    rw [linter.run_of_plan_eq_error hplan journal]
    simp [eq_comm]
  | ok plan =>
    have hne := linter.run_ne_plan hplan journal (.mixedKinds several)
    simp only [reduceCtorEq, false_and, iff_false]
    exact fun hrun => hne (by rw [hrun])

/-- Targets form a plan when there are some and all are of one kind; otherwise the reason names the
kinds in the order in which they are first met, and the order of the arguments makes no other
difference. A run over targets of several kinds leaves the journal as it is, and ends in the same
way whatever the files hold. -/
theorem mixture_rejected (linter : Linter) (disk : Disk) (args : List String) :
    (∀ plan, Plan.ofArguments disk args = .ok plan ↔
      args ≠ [] ∧ (∀ arg ∈ args, (Target.classify disk arg).kind = plan.kind) ∧
        plan.targets = args.map (Target.classify disk) ∧ plan.arguments = args) ∧
    (Plan.ofArguments disk args = .error .noTargets ↔ args = []) ∧
    (∀ several, Plan.ofArguments disk args = .error (.mixedKinds several) ↔
      (∃ arg ∈ args, ∃ other ∈ args,
        (Target.classify disk arg).kind ≠ (Target.classify disk other).kind) ∧
      IsFirstsOf several (args.map fun arg => (Target.classify disk arg).kind)) ∧
    (∀ args', args.Perm args' →
      Plan.SameUpToOrder (Plan.ofArguments disk args) (Plan.ofArguments disk args')) ∧
    (∀ several journal later,
      (linter.run disk args).runOn journal = (.error (.plan (.mixedKinds several)), later) →
        Plan.ofArguments disk args = .error (.mixedKinds several) ∧ later = journal ∧
        ∀ other, disk.Alike other →
          (linter.run other args).runOn journal =
            (.error (.plan (.mixedKinds several)), journal)) := by
  refine ⟨?plan, Plan.ofArguments_eq_noTargets_iff,
    fun several => Plan.ofArguments_eq_mixedKinds_iff,
    fun args' hperm => Plan.sameUpToOrder_of_perm hperm, ?run⟩
  case plan =>
    intro plan
    rw [Plan.ofArguments_eq_ok_iff]
    have harguments : plan.targets = args.map (Target.classify disk) → plan.arguments = args := by
      intro htargets
      rw [Plan.arguments, htargets, List.map_map]
      exact List.map_id'' (fun arg => Target.raw_classify disk arg) args
    constructor
    · rintro ⟨hne, hkind, htargets⟩
      exact ⟨hne, hkind, htargets, harguments htargets⟩
    · rintro ⟨hne, hkind, htargets, -⟩
      exact ⟨hne, hkind, htargets⟩
  case run =>
    intro several journal later hrun
    obtain ⟨hplan, hlater⟩ := linter.run_eq_mixedKinds_iff.1 hrun
    refine ⟨hplan, hlater, fun other halike => linter.run_eq_mixedKinds_iff.2 ⟨?_, rfl⟩⟩
    rw [Plan.ofArguments_eq_of_alike halike, hplan]

/-- A directory with one file in it. -/
def oneFile : Disk where
  root := .directory [("d", .directory [("x.py", .file .empty)])]
  here := []

theorem ofArguments_oneFile :
    Plan.ofArguments oneFile ["d", "pkg"] = .error (.mixedKinds [.directory, .package]) := by
  have hdirectory : oneFile.node "d" = .ok (.directory [("x.py", .file .empty)]) :=
    Disk.node_of_spellsOut rfl (show Disk.SpellsOut _ ["d"] by decide) rfl
      (Node.directory_ne_link _)
  have hpackage : oneFile.node "pkg" = .error .missing :=
    Disk.node_of_spellsOut_of_find?_eq_none rfl
      (show Disk.SpellsOut _ ([] ++ "pkg" :: []) by decide) (Node.at?_nil _) (by decide)
  rw [Plan.ofArguments, List.map_cons, List.map_cons, List.map_nil,
    classify_of_node_eq_directory (by decide) hdirectory,
    classify_of_node_eq_error (by decide) hpackage]
  rfl

/-- A directory and a package are rejected, whatever is written into the file. -/
theorem rejected_oneFile :
    (quiet.run oneFile ["d", "pkg"]).runOn {} =
      (.error (.plan (.mixedKinds [.directory, .package])), {}) ∧
    (quiet.run (oneFile.rewritten ["d", "x.py"] ⟨#[1]⟩) ["d", "pkg"]).runOn {} =
      (.error (.plan (.mixedKinds [.directory, .package])), {}) ∧
    Plan.SameUpToOrder (Plan.ofArguments oneFile ["d", "pkg"])
      (Plan.ofArguments oneFile ["pkg", "d"]) := by
  have hrun : (quiet.run oneFile ["d", "pkg"]).runOn {} =
      (.error (.plan (.mixedKinds [.directory, .package])), {}) :=
    quiet.run_eq_mixedKinds_iff.2 ⟨ofArguments_oneFile, rfl⟩
  obtain ⟨-, -, -, hperm, hrejected⟩ := mixture_rejected quiet oneFile ["d", "pkg"]
  obtain ⟨-, -, hother⟩ := hrejected _ {} {} hrun
  have hplace : oneFile.root.at? ["d", "x.py"] = some (.file .empty) := rfl
  exact ⟨hrun, hother _ (Disk.alike_rewritten _ hplace),
    hperm _ (List.Perm.swap _ _ _)⟩

end Linter

end LintFront
