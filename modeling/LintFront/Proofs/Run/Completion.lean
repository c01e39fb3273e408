import LintFront.Proofs.Directory.Expansion
import LintFront.Proofs.Package.Resolution
import LintFront.Proofs.Run.Inspection
import LintFront.Proofs.Run.Reading
import LintFront.Proofs.Run.Targets
/-!
# Which runs come to their end

Nothing that a target comes to is meant to end a run: it forms a unit, or it is reported, and the
targets after it are linted all the same. Over directories and over files this is so. Over packages
it is so unless the search for one of them ends the run, which is the one thing that is not caught.

## Main statements

`Linter.run_completes_iff`: which runs come to their end, what cuts the others short, and what a run
does that comes to its end.
-/

namespace LintFront

variable {disk : Disk}

namespace Linter

/-! ## 1. Scripts that come to their end -/

theorem ending_scriptOfBatch {batch : Batch} (h : ∀ path ∈ batch.paths, Path.NullFree path) :
    (scriptOfBatch disk batch).ending = none := by
  rw [scriptOfBatch, Reading.ofPaths_eq, if_pos h]

/-- What can be gone on with does not end the run. -/
theorem ending_scriptOfUnit {resolved : Except Trouble SourceUnit} (h : Sound resolved) :
    (scriptOfUnit disk resolved).ending = none := by
  cases h with
  | unit paths =>
    rw [scriptOfUnit]
    split
    · rfl
    · rw [Script.ending_andThen_eq_none_iff]
      refine ⟨rfl, ending_scriptOfBatch fun path hpath => ?_⟩
      exact paths path (List.mem_eraseDups.1 hpath)
  | reason error => rfl

/-- Directories never end a run. -/
theorem ending_scriptOfDirectories (linter : Linter) (hroot : disk.root.WellFormed)
    {targets : List Target} (h : ∀ target ∈ targets, Path.NullFree target.path) :
    (linter.scriptOfDirectories disk targets).ending = none := by
  -- That no target ends the run and that its paths can be looked up is shown together, since the
  -- walk gives both.
  have heach : ∀ target ∈ targets, ∃ directories,
      directoriesOf disk linter.excludes target = .ok directories ∧
      ∀ d ∈ directories, Path.NullFree d := by
    intro target htarget
    unfold directoriesOf
    split
    · exact Directory.exists_expand_eq_ok hroot (h target htarget)
    · refine ⟨_, rfl, ?_⟩
      intro d hd
      rw [List.mem_singleton.1 hd]
      exact h target htarget
  obtain ⟨directories, hexpand, -, hmem⟩ := exists_expandDirectories_eq_ok fun target htarget =>
    (heach target htarget).imp fun _ hpaths => hpaths.1
  have hnull : ∀ d ∈ directories, Path.NullFree d := by
    intro d hd
    obtain ⟨target, htarget, paths, hpaths, hd⟩ := (hmem d).1 hd
    obtain ⟨_, hsame, hfree⟩ := heach target htarget
    obtain rfl := Except.ok.inj (hpaths.symm.trans hsame)
    obtain ⟨path, hpath, rfl⟩ := List.mem_map.1 hd
    exact (hfree path hpath).normal
  rw [scriptOfDirectories, hexpand, Script.ending_all_eq_none_iff]
  intro script hscript
  obtain ⟨d, hd, rfl⟩ := List.mem_map.1 hscript
  exact ending_scriptOfUnit (Directory.sound_unit hroot (hnull d hd))

/-! ## 2. Package runs -/

/-- The search for one of the specifiers that belong to an argument ends the run: that of its
package, or one of those that the argument stands for. Without the marker these are one. -/
def Derails (linter : Linter) (disk : Disk) (arg : String) (fault : Fault) : Prop :=
  ∃ text ∈ stripMarker arg :: linter.specifiersOf disk arg,
    Package.EndsRun disk linter.search "." text fault

theorem mem_specifiers {linter : Linter} {args : List String} {s : String} :
    s ∈ linter.specifiers disk args ↔ ∃ arg ∈ args, s ∈ linter.specifiersOf disk arg := by
  rw [specifiers, List.mem_eraseDups, List.mem_flatMap]

/-- An argument without the marker stands for itself. -/
theorem specifiersOf_of_not_hasMarker {linter : Linter} {arg : String}
    (h : ¬hasMarker arg = true) : linter.specifiersOf disk arg = [arg] := by
  rw [specifiersOf, Package.expand, if_neg h]

section

variable {linter : Linter} (hroot : disk.root.WellFormed) (hcwd : Path.NullFree disk.cwd)

include hroot hcwd

/-- A specifier ends the run by its search or not at all. -/
theorem ending_scriptOfPackage_iff {text : String} {cause : RunFault} :
    (scriptOfUnit disk (Package.unit disk linter.search text ".")).ending = some cause ↔
      ∃ fault, cause = .fault fault ∧ Package.EndsRun disk linter.search "." text fault := by
  have hdot : Path.NullFree "." := by decide
  constructor
  · intro h
    rcases Package.sound_unit_or_endsRun hroot hcwd hdot linter.search text with
      hsound | ⟨fault, hunit, hends⟩
    · rw [ending_scriptOfUnit hsound] at h
      cases h
    · rw [hunit] at h
      exact ⟨fault, (Option.some.inj h).symm, hends⟩
  · rintro ⟨fault, rfl, hends⟩
    rw [(Package.unit_eq_fault_iff hroot hcwd hdot).2 hends]
    rfl

/-- The expansion of an argument ends the run by the search for its package or not at all. -/
theorem ending_scriptOfExpansion_iff {arg : String} {cause : RunFault} :
    (linter.scriptOfExpansion disk arg).ending = some cause ↔
      ∃ fault, cause = .fault fault ∧ hasMarker arg = true ∧
        Package.EndsRun disk linter.search "." (stripMarker arg) fault := by
  have hiff : ∀ fault, Package.expand disk linter.search linter.excludes arg "." =
      .error (.fault fault) ↔ hasMarker arg = true ∧
        Package.EndsRun disk linter.search "." (stripMarker arg) fault :=
    fun fault => Package.expand_eq_fault_iff hroot hcwd (by decide)
  rw [scriptOfExpansion]
  constructor
  · intro h
    split at h
    · cases h
    · cases h
    · rename_i fault hfault
      exact ⟨fault, (Option.some.inj h).symm, (hiff fault).1 hfault⟩
  · rintro ⟨fault, rfl, hends⟩
    rw [(hiff fault).2 hends]
    rfl

/-- A package run comes to its end when none of its arguments derails. -/
theorem ending_scriptOfPackages_eq_none_iff {args : List String} :
    (linter.scriptOfPackages disk args).ending = none ↔
      ∀ arg ∈ args, ∀ fault, ¬linter.Derails disk arg fault := by
  rw [scriptOfPackages, Script.ending_andThen_eq_none_iff, Script.ending_all_eq_none_iff,
    Script.ending_all_eq_none_iff, List.forall_mem_map, List.forall_mem_map]
  simp only [Option.eq_none_iff_forall_ne_some, ne_eq, ending_scriptOfExpansion_iff hroot hcwd,
    ending_scriptOfPackage_iff hroot hcwd]
  -- Without the marker an argument is not searched for when it is expanded, but only later, as the
  -- one specifier that it stands for.
  constructor
  · rintro ⟨hexpansions, hunits⟩ arg harg fault ⟨text, htext, hends⟩
    rcases List.mem_cons.1 htext with rfl | htext
    · by_cases hmarker : hasMarker arg = true
      · exact hexpansions arg harg _ ⟨fault, rfl, hmarker, hends⟩
      · have hself : stripMarker arg ∈ linter.specifiersOf disk arg := by
          rw [specifiersOf_of_not_hasMarker hmarker, stripMarker, if_neg hmarker]
          exact List.mem_singleton_self arg
        exact hunits _ (mem_specifiers.2 ⟨arg, harg, hself⟩) _ ⟨fault, rfl, hends⟩
    · exact hunits _ (mem_specifiers.2 ⟨arg, harg, htext⟩) _ ⟨fault, rfl, hends⟩
  · intro hnone
    constructor
    · rintro arg harg _ ⟨fault, rfl, -, hends⟩
      exact hnone arg harg fault ⟨_, List.mem_cons_self, hends⟩
    · rintro s hs _ ⟨fault, rfl, hends⟩
      obtain ⟨arg, harg, hmem⟩ := mem_specifiers.1 hs
      exact hnone arg harg fault ⟨s, List.mem_cons_of_mem _ hmem, hends⟩

/-- What cuts a package run short is the derailing of an argument. -/
theorem exists_derails_of_ending {args : List String} {cause : RunFault}
    (h : (linter.scriptOfPackages disk args).ending = some cause) :
    ∃ arg ∈ args, ∃ fault, cause = .fault fault ∧ linter.Derails disk arg fault := by
  -- The first script that ends early is that of an expansion or that of a unit.
  rcases Script.ending_of_andThen h with hexpansion | hunit
  · obtain ⟨script, hscript, hending⟩ := Script.exists_ending_of_all hexpansion
    obtain ⟨arg, harg, rfl⟩ := List.mem_map.1 hscript
    obtain ⟨fault, hcause, -, hends⟩ := (ending_scriptOfExpansion_iff hroot hcwd).1 hending
    exact ⟨arg, harg, fault, hcause, _, List.mem_cons_self, hends⟩
  · obtain ⟨script, hscript, hending⟩ := Script.exists_ending_of_all hunit
    obtain ⟨s, hs, rfl⟩ := List.mem_map.1 hscript
    obtain ⟨fault, hcause, hends⟩ := (ending_scriptOfPackage_iff hroot hcwd).1 hending
    obtain ⟨arg, harg, hmem⟩ := mem_specifiers.1 hs
    exact ⟨arg, harg, fault, hcause, s, List.mem_cons_of_mem _ hmem, hends⟩

end

/-! ## 3. What the targets contribute -/

/-- What comes of a target: a unit is given to the engine as far as it can be read; a target that
forms none is reported once, or passed over in silence when it merely holds no sources. -/
def contribution (disk : Disk) : Except Trouble SourceUnit → List Move
  | .ok unit => (scriptOfUnit disk (.ok unit)).moves
  | .error (.noUnit error) => [.ofUnitError error]
  | .error (.fault _) => []

/-- What is said of an argument that is to be expanded: nothing, unless its package is not found. -/
def expansionReport (linter : Linter) (disk : Disk) (arg : String) : List Move :=
  match Package.expand disk linter.search linter.excludes arg "." with
  | .error (.noUnit error) => [.fail error.message]
  | _ => []

/-- What comes of the targets of a plan, one after the other. -/
def contributions (linter : Linter) (disk : Disk) (plan : Plan) : List (List Move) :=
  match plan.kind with
  | .directory =>
    match expandDirectories disk linter.excludes plan.targets with
    | .ok directories => directories.map fun d => contribution disk (Directory.unit disk d)
    | .error _ => []
  | .file => [(scriptOfBatch disk (.ofPaths filesLabel plan.arguments)).moves]
  | .package =>
    plan.arguments.map (linter.expansionReport disk) ++
      (linter.specifiers disk plan.arguments).map fun s =>
        contribution disk (Package.unit disk linter.search s ".")

theorem moves_scriptOfUnit (resolved : Except Trouble SourceUnit) :
    (scriptOfUnit disk resolved).moves = contribution disk resolved := by
  rcases resolved with (error | fault) | unit <;> rfl

theorem moves_scriptOfExpansion (linter : Linter) (arg : String) :
    (linter.scriptOfExpansion disk arg).moves = linter.expansionReport disk arg := by
  unfold scriptOfExpansion expansionReport
  rcases Package.expand disk linter.search linter.excludes arg "." with (error | fault) | texts <;>
    rfl

/-- A plan that comes to its end makes the moves of its targets one after the other. -/
theorem moves_scriptOfPlan {linter : Linter} {plan : Plan}
    (h : (linter.scriptOfPlan disk plan).ending = none) :
    (linter.scriptOfPlan disk plan).moves = (linter.contributions disk plan).flatten := by
  unfold scriptOfPlan at h ⊢
  unfold contributions
  cases hkind : plan.kind with
  | directory =>
    rw [hkind] at h
    dsimp only at h ⊢
    unfold scriptOfDirectories at h ⊢
    cases hexpand : expandDirectories disk linter.excludes plan.targets with
    | error fault =>
      rw [hexpand] at h
      cases h
    | ok directories =>
      rw [hexpand] at h
      rw [Script.ending_all_eq_none_iff] at h
      rw [Script.moves_all h, List.flatMap_map, List.flatMap]
      simp only [moves_scriptOfUnit]
  | file => exact (List.append_nil _).symm
  | package =>
    rw [hkind] at h
    dsimp only at h ⊢
    rw [scriptOfPackages, Script.ending_andThen_eq_none_iff] at h
    obtain ⟨hexpansions, hunits⟩ := h
    rw [scriptOfPackages, Script.andThen_of_ending_eq_none hexpansions]
    rw [Script.ending_all_eq_none_iff] at hexpansions hunits
    dsimp only
    rw [Script.moves_all hexpansions, Script.moves_all hunits, List.flatten_append,
      List.flatMap_map, List.flatMap_map, List.flatMap, List.flatMap]
    simp only [moves_scriptOfUnit, moves_scriptOfExpansion]

/-! ## 4. Runs -/

/-- Targets that are directories have paths that can be looked up. -/
theorem nullFree_path_of_kind_eq_directory {args : List String}
    (h : ∀ target ∈ targetsOf disk args, target.kind = .directory) :
    ∀ target ∈ targetsOf disk args, Path.NullFree target.path := by
  intro target htarget
  obtain ⟨arg, -, rfl⟩ := List.mem_map.1 htarget
  obtain ⟨entries, hnode⟩ := Target.exists_node_of_classify (h _ htarget)
  exact Disk.nullFree_of_node hnode

/-- The script of a run is cut short by an argument that derails or not at all. -/
theorem ending_script_iff (linter : Linter) {args : List String} {kind : TargetKind}
    (hroot : disk.root.WellFormed) (hcwd : Path.NullFree disk.cwd)
    (hkind : ∀ target ∈ targetsOf disk args, target.kind = kind) :
    ((linter.script disk args).ending = none ↔ (kind = .package →
      ∀ target ∈ targetsOf disk args, ∀ fault, ¬linter.Derails disk target.raw fault)) ∧
    ∀ cause, (linter.script disk args).ending = some cause → kind = .package ∧
      ∃ target ∈ targetsOf disk args, ∃ fault, cause = .fault fault ∧
        linter.Derails disk target.raw fault := by
  -- The message at the beginning ends nothing.
  have hending : (linter.script disk args).ending =
      (linter.scriptOfPlan disk ⟨kind, targetsOf disk args⟩).ending := by
    rw [script_eq linter hkind, Script.andThen_of_ending_eq_none rfl]
  rw [hending]
  cases kind with
  | directory =>
    have hnone : (linter.scriptOfPlan disk ⟨.directory, targetsOf disk args⟩).ending = none :=
      linter.ending_scriptOfDirectories hroot (nullFree_path_of_kind_eq_directory hkind)
    rw [hnone]
    exact ⟨⟨fun _ => nofun, fun _ => rfl⟩, nofun⟩
  | file =>
    have hnull : ∀ path ∈ (Batch.ofPaths filesLabel
        (Plan.arguments ⟨.file, targetsOf disk args⟩)).paths, Path.NullFree path := by
      intro path hpath
      obtain ⟨target, htarget, rfl⟩ := List.mem_map.1 (List.mem_eraseDups.1 hpath)
      exact nullFree_of_kind_eq_file htarget (hkind target htarget)
    have hnone : (linter.scriptOfPlan disk ⟨.file, targetsOf disk args⟩).ending = none :=
      ending_scriptOfBatch hnull
    rw [hnone]
    exact ⟨⟨fun _ => nofun, fun _ => rfl⟩, nofun⟩
  | package =>
    constructor
    · rw [scriptOfPlan, ending_scriptOfPackages_eq_none_iff hroot hcwd, Plan.arguments,
        List.forall_mem_map]
      exact ⟨fun h _ => h, fun h => h rfl⟩
    · intro cause hcause
      obtain ⟨arg, harg, fault, rfl, hderails⟩ := exists_derails_of_ending hroot hcwd hcause
      obtain ⟨target, htarget, rfl⟩ := List.mem_map.1 harg
      exact ⟨rfl, target, htarget, fault, rfl, hderails⟩

/-- With an engine that keeps its promise, runs over directories and over files come to their end,
and runs over packages do unless one of the arguments derails; nothing but this cuts a run short. A
run that comes to its end is what its targets contribute, one after the other. -/
theorem run_completes_iff {linter : Linter} {disk : Disk} {args : List String} {kind : TargetKind}
    (hroot : disk.root.WellFormed)
    (hhere : ∃ entries, disk.root.at? disk.here = some (.directory entries))
    (hengine : linter.reporter.engine.IsFaithful)
    (hkind : ∀ target ∈ targetsOf disk args, target.kind = kind) (journal : Journal) :
    (((linter.run disk args).runOn journal).1 = .ok () ↔ (kind = .package →
      ∀ target ∈ targetsOf disk args, ∀ fault, ¬linter.Derails disk target.raw fault)) ∧
    (∀ cause, ((linter.run disk args).runOn journal).1 = .error cause → kind = .package ∧
      ∃ target ∈ targetsOf disk args, ∃ fault, cause = .fault fault ∧
        linter.Derails disk target.raw fault) ∧
    (((linter.run disk args).runOn journal).1 = .ok () →
      linter.run disk args = List.forM (.note (opening ⟨kind, targetsOf disk args⟩) ::
        (linter.contributions disk ⟨kind, targetsOf disk args⟩).flatten)
        linter.reporter.perform) := by
  obtain ⟨entries, hhere⟩ := hhere
  obtain ⟨hnone, hsome⟩ := linter.ending_script_iff hroot (Disk.nullFree_cwd hroot hhere) hkind
  rw [run_eq_play, Reporter.fst_play hengine, Script.outcome_eq_ok_iff]
  refine ⟨hnone, ?_, ?_⟩
  · intro cause hcause
    exact hsome cause (Script.outcome_eq_error_iff.1 hcause)
  · intro hending
    rw [Reporter.play_of_ending_eq_none _ hending]
    rw [script_eq linter hkind, Script.ending_andThen_eq_none_iff] at hending
    rw [script_eq linter hkind, Script.andThen_of_ending_eq_none hending.1,
      moves_scriptOfPlan hending.2]
    rfl

/-- A disk with a package that holds a directory without an initial file. -/
def bareInside : Disk where
  root := .directory [("pkg", .directory [("__init__.py", .file .empty), ("sub", .directory [])])]
  here := []

/-- Arguments that name nothing on the disk name packages. -/
theorem targetsOf_bareInside {args : List String} (hne : args ≠ [])
    (hargs : ∀ arg ∈ args, hasMarker arg = false ∧ Disk.SpellsOut arg [arg] ∧ arg ≠ "pkg") :
    targetsOf bareInside args = args.map fun arg => ⟨arg, .package, false⟩ := by
  rw [targetsOf, if_neg (by simpa using hne)]
  apply List.map_congr_left
  intro arg harg
  obtain ⟨hmarker, hspells, hpkg⟩ := hargs arg harg
  have hnone : Entries.find? arg bareInside.root.entries = none := by
    rw [Entries.find?_eq_none_iff]
    simpa [bareInside, Entries.names, Node.entries] using hpkg
  have hmissing : bareInside.node arg = .error .missing :=
    Disk.node_of_spellsOut_of_find?_eq_none rfl (show Disk.SpellsOut arg ([] ++ [arg]) from hspells)
      rfl hnone
  exact classify_of_node_eq_error hmarker hmissing

/-- A package that is not found is reported, and the run goes on. -/
theorem completes_bareInside :
    ((quiet.run bareInside ["other"]).runOn {}).1 = .ok () ∧
    quiet.run bareInside ["other"] =
      List.forM (.note (opening ⟨.package, targetsOf bareInside ["other"]⟩) ::
        (quiet.contributions bareInside ⟨.package, targetsOf bareInside ["other"]⟩).flatten)
        quiet.reporter.perform := by
  have htargets : targetsOf bareInside ["other"] = [⟨"other", .package, false⟩] :=
    targetsOf_bareInside (List.cons_ne_nil _ _) (by decide)
  have hkind : ∀ target ∈ targetsOf bareInside ["other"], target.kind = .package := by
    rw [htargets]
    decide
  have hstays : ∀ target ∈ targetsOf bareInside ["other"], ∀ fault,
      ¬quiet.Derails bareInside target.raw fault := by
    rw [htargets]
    rintro target htarget fault ⟨text, htext, hends⟩
    obtain rfl := List.mem_singleton.1 htarget
    have hother : text = "other" := by
      rw [specifiersOf_of_not_hasMarker (by decide)] at htext
      simpa [show stripMarker "other" = "other" by decide] using htext
    subst hother
    have hparse : Specifier.parse? "other" = some ⟨["other"]⟩ := by decide
    exact Package.not_endsRun_of_singleton (List.forall_mem_nil _) hparse hends
  obtain ⟨hcompletes, -, hruns⟩ :=
    run_completes_iff (by decide) ⟨_, rfl⟩ isFaithful_quiet hkind {}
  have hdone := hcompletes.2 fun _ => hstays
  exact ⟨hdone, hruns hdone⟩

/-! ## 5. A run that is cut short -/

namespace bareInside

open Package

theorem isDirectory_pkg : bareInside.isDirectory "/pkg" = true := by
  have hnode : bareInside.node "/pkg" =
      .ok (.directory [("__init__.py", .file .empty), ("sub", .directory [])]) :=
    Disk.node_of_spellsOut rfl (show Disk.SpellsOut _ ["pkg"] by decide) rfl
      (Node.directory_ne_link _)
  exact Disk.isDirectory_iff.2 ⟨_, hnode⟩

theorem isDirectory_sub : bareInside.isDirectory "/pkg/sub" = true := by
  have hnode : bareInside.node "/pkg/sub" = .ok (.directory []) :=
    Disk.node_of_spellsOut rfl (show Disk.SpellsOut _ ["pkg", "sub"] by decide) rfl
      (Node.directory_ne_link _)
  exact Disk.isDirectory_iff.2 ⟨_, hnode⟩

theorem probeAt_pkg : probeAt bareInside "pkg" "/" = .ok (.package "/pkg") := by
  have hinside : inside "/" "pkg" = "/pkg" := by decide
  have hprobe : probeAt bareInside "pkg" "/" = .ok (.package (inside "/" "pkg")) :=
    probeAt_slash rfl rfl (by decide) rfl
  rwa [hinside] at hprobe

theorem not_settles_sub : ¬Settles bareInside "sub" "/pkg" := by
  have hbelow : ∀ suffix ∈ moduleSuffixes,
      Disk.SpellsOut (inside (inside "/pkg" "sub") ("__init__" ++ suffix))
        (["pkg", "sub"] ++ ["__init__" ++ suffix]) := by decide
  have hbeside : ∀ suffix ∈ moduleSuffixes,
      Disk.SpellsOut (inside "/pkg" ("sub" ++ suffix)) (["pkg"] ++ ["sub" ++ suffix]) ∧
        "sub" ++ suffix ∉ ["__init__.py", "sub"] := by decide
  rw [settles_iff_of_head (by decide) isDirectory_pkg]
  rintro ⟨suffix, hsuffix, hfile⟩
  obtain ⟨hspells, habsent⟩ := hbeside suffix hsuffix
  have hnothing : bareInside.node (inside (inside "/pkg" "sub") ("__init__" ++ suffix)) =
      .error .missing :=
    Disk.node_of_spellsOut_of_find?_eq_none rfl (hbelow suffix hsuffix) rfl rfl
  have hneither : bareInside.node (inside "/pkg" ("sub" ++ suffix)) = .error .missing :=
    Disk.node_of_spellsOut_of_find?_eq_none rfl hspells rfl (Entries.find?_eq_none_iff.2 habsent)
  rw [Disk.isFile, Disk.isFile, hnothing, hneither] at hfile
  simp at hfile

theorem locate_pkg : locate bareInside [] "." ⟨["pkg"]⟩ = .ok (.package "/pkg") := by
  have hbase : Path.absolute bareInside.cwd "." = "/" :=
    Disk.absolute_dot (List.forall_mem_nil _)
  have hstep : step bareInside [] "pkg" ["/"] = .ok (some (.package "/pkg")) := by
    rw [step, lookUp_cons_package probeAt_pkg]
  rw [locate, hbase, locateFrom_cons_of_step hstep]
  rfl

theorem endsRun : EndsRun bareInside [] "." "pkg.sub.deep" (.parentNotLoaded "pkg") := by
  have hparse : Specifier.parse? "pkg.sub.deep" = some ⟨["pkg", "sub", "deep"]⟩ := by decide
  have hholds : HoldsDirectory bareInside "sub" "/pkg" := by
    rw [holdsDirectory_iff_of_head (by decide) isDirectory_pkg,
      show inside "/pkg" "sub" = "/pkg/sub" by decide]
    exact isDirectory_sub
  refine ⟨_, hparse, .inr ⟨["pkg"], rfl, List.cons_ne_nil _ _, "sub", ["deep"], _, rfl, locate_pkg,
    ?_, "/pkg", List.mem_cons_self, hholds⟩⟩
  intro place hplace
  rw [List.mem_singleton.1 hplace]
  exact not_settles_sub

end bareInside

/-- Over packages a run may be cut short: here by the first target, and the second, which is no
package and should be reported as such, is not even looked at. -/
theorem run_cut_short :
    (∀ target ∈ targetsOf bareInside ["pkg.sub.deep", "other"], target.kind = .package) ∧
    (quiet.run bareInside ["pkg.sub.deep", "other"]).runOn {} =
      (.error (.fault (.parentNotLoaded "pkg")),
        { events := [.noted "run kind=packages targets=2"] }) := by
  have htargets : targetsOf bareInside ["pkg.sub.deep", "other"] =
      [⟨"pkg.sub.deep", .package, false⟩, ⟨"other", .package, false⟩] :=
    targetsOf_bareInside (List.cons_ne_nil _ _) (by decide)
  have hkind : ∀ target ∈ targetsOf bareInside ["pkg.sub.deep", "other"],
      target.kind = .package := by
    rw [htargets]
    decide
  have hunit : Package.unit bareInside [] "pkg.sub.deep" "." =
      .error (.fault (.parentNotLoaded "pkg")) :=
    (Package.unit_eq_fault_iff (by decide) (by decide) (by decide)).2 bareInside.endsRun
  have hspecifiers : quiet.specifiers bareInside ["pkg.sub.deep", "other"] =
      ["pkg.sub.deep", "other"] := by
    rw [specifiers, List.flatMap_cons, List.flatMap_cons, List.flatMap_nil,
      specifiersOf_of_not_hasMarker (by decide), specifiersOf_of_not_hasMarker (by decide)]
    decide
  have hscript : quiet.script bareInside ["pkg.sub.deep", "other"] =
      { moves := [.note "run kind=packages targets=2"]
        ending := some (.fault (.parentNotLoaded "pkg")) } := by
    have hexpansion : ∀ arg, ¬hasMarker arg = true →
        quiet.scriptOfExpansion bareInside arg = {} := by
      intro arg hmarker
      rw [scriptOfExpansion, Package.expand, if_neg hmarker]
    have hfirst :
        scriptOfUnit bareInside (Package.unit bareInside quiet.search "pkg.sub.deep" ".") =
          .stop (.fault (.parentNotLoaded "pkg")) := by
      rw [show quiet.search = [] from rfl, hunit]
      rfl
    rw [script_eq quiet hkind, htargets]
    rw [scriptOfPlan, scriptOfPackages]
    simp only [Plan.arguments, List.map_cons, List.map_nil, hspecifiers, hfirst]
    rw [hexpansion _ (by decide), hexpansion _ (by decide)]
    rfl
  refine ⟨hkind, ?_⟩
  rw [run_eq_play, hscript]
  rfl

end Linter

end LintFront
