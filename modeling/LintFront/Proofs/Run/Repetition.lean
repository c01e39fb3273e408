import LintFront.Proofs.Directory.Files
import LintFront.Proofs.Package.Resolution
import LintFront.Proofs.Run.Completion
import LintFront.Proofs.Run.Endings
import Mathlib.Data.List.Nodup
import Mathlib.Data.List.Pairwise
/-!
# What a package run gives to the engine

A run over packages gives the engine one batch for each specifier that its arguments stand for, the
specifiers with nothing to read aside. The specifiers are all different, but only as they are
spelled. Two spellings of one package are two specifiers with one unit, a module is linted once by
itself and once with the package around it, and a directory may be reached from two places of the
search path. In all of these cases files are given to the engine more than once.

So the question whether a file is linted twice is one about the units of different specifiers, and
here it is answered in these terms. A run over directories is different: its directories are told
apart in their normal spelling.

## Main statements

`Linter.package_run_repeats_iff`: what a run over packages gives to the engine, and when it gives no
file twice. `Linter.run_repeats`: two spellings of a module by which its file is given twice.
-/

namespace LintFront

/-- The paths that the engine is given by a call. -/
def Call.paths (call : Call) : List String := call.files.map Prod.fst

variable {disk : Disk}

namespace Linter

/-! ## 1. What a unit gives -/

/-- The paths of what a target was resolved to that can be read. -/
def readablePaths (disk : Disk) : Except Trouble SourceUnit → List String
  | .ok unit => unit.files.eraseDups.filter (Reading.isReadable disk)
  | .error _ => []

/-- A batch gives the paths of it that can be read, and nothing when there are none. -/
theorem given_scriptOfBatch {batch : Batch} (hnodup : batch.paths.Nodup)
    (h : (scriptOfBatch disk batch).ending = none) :
    (scriptOfBatch disk batch).given.map (·.map Prod.fst) =
      [batch.paths.filter (Reading.isReadable disk)].filter (· ≠ []) := by
  rw [scriptOfBatch] at h ⊢
  cases hreading : Reading.ofPaths disk batch.paths with
  | error fault =>
    rw [hreading] at h
    cases h
  | ok reading =>
    have hpaths := Reading.paths_of_ofPaths hnodup hreading
    -- What cannot be read is reported, and a report gives the engine nothing.
    have hfailures : (reading.failures.map fun f =>
        Move.fail (Reading.describe f)).filterMap Move.given? = [] := by
      rw [List.filterMap_map, List.filterMap_eq_nil_iff]
      exact fun _ _ => rfl
    rw [← hpaths]
    dsimp only [Script.given]
    rw [List.filterMap_append, hfailures, List.nil_append]
    cases hsources : reading.sources with
    | nil => rfl
    | cons file files => rfl

/-- What a target was resolved to gives its paths that can be read, and nothing when there are
none. -/
theorem given_scriptOfUnit {resolved : Except Trouble SourceUnit}
    (h : (scriptOfUnit disk resolved).ending = none) :
    (scriptOfUnit disk resolved).given.map (·.map Prod.fst) =
      [readablePaths disk resolved].filter (· ≠ []) := by
  rcases resolved with (error | fault) | unit
  · cases error <;> rfl
  · cases h
  · rw [scriptOfUnit] at h ⊢
    unfold readablePaths
    dsimp only
    split at h
    · rename_i hnone
      rw [if_pos hnone, List.isEmpty_iff.1 hnone]
      rfl
    · rename_i hsome
      rw [if_neg hsome]
      have hrest := (Script.ending_andThen_eq_none_iff.1 h).2
      rw [Script.given_andThen rfl]
      exact given_scriptOfBatch (nodup_eraseDups _) hrest

/-! ## 2. What a package run gives -/

/-- The paths that are read for a specifier. -/
def pathsFor (linter : Linter) (disk : Disk) (s : String) : List String :=
  readablePaths disk (Package.unit disk linter.search s ".")

/-- Specifiers with the same normal form have the same paths. -/
theorem pathsFor_of_parse? (linter : Linter) {s s' : String} {spec : Specifier}
    (h : Specifier.parse? s = some spec) (h' : Specifier.parse? s' = some spec) :
    linter.pathsFor disk s = linter.pathsFor disk s' := by
  rw [pathsFor, pathsFor, Package.unit_of_parse? h, Package.unit_of_parse? h']

theorem nodup_pathsFor (linter : Linter) (disk : Disk) (s : String) :
    (linter.pathsFor disk s).Nodup := by
  rw [pathsFor]
  cases Package.unit disk linter.search s "." with
  | ok unit => exact (nodup_eraseDups _).filter _
  | error trouble => exact List.nodup_nil

theorem given_scriptOfExpansion (linter : Linter) (disk : Disk) (arg : String) :
    (linter.scriptOfExpansion disk arg).given = [] := by
  unfold scriptOfExpansion
  rcases Package.expand disk linter.search linter.excludes arg "." with (error | fault) | texts <;>
    rfl

/-- Units one after the other give the paths of each. -/
theorem given_units {linter : Linter} {specifiers : List String}
    (h : ∀ s ∈ specifiers,
      (scriptOfUnit disk (Package.unit disk linter.search s ".")).ending = none) :
    (specifiers.flatMap fun s =>
        (scriptOfUnit disk (Package.unit disk linter.search s ".")).given).map (·.map Prod.fst) =
      (specifiers.map (linter.pathsFor disk)).filter (· ≠ []) := by
  -- One specifier after the other: each adds its one batch, or none, in front of the batches of the
  -- rest.
  induction specifiers with
  | nil => rfl
  | cons s rest ih =>
    have hs := given_scriptOfUnit (h s List.mem_cons_self)
    have hrest := ih fun t ht => h t (List.mem_cons_of_mem _ ht)
    rw [List.flatMap_cons, List.map_append, hs, hrest, ← List.filter_append]
    rfl

/-- The batches of a package run are those of its specifiers in order. -/
theorem given_scriptOfPackages {linter : Linter} {texts : List String}
    (h : (linter.scriptOfPackages disk texts).ending = none) :
    (linter.scriptOfPackages disk texts).given.map (·.map Prod.fst) =
      ((linter.specifiers disk texts).map (linter.pathsFor disk)).filter (· ≠ []) := by
  rw [scriptOfPackages, Script.ending_andThen_eq_none_iff] at h
  obtain ⟨hexpansions, hunits⟩ := h
  have hnothing : texts.flatMap (fun arg => (linter.scriptOfExpansion disk arg).given) = [] := by
    rw [List.flatMap_eq_nil_iff]
    exact fun arg _ => linter.given_scriptOfExpansion disk arg
  rw [scriptOfPackages, Script.given_andThen hexpansions]
  rw [Script.ending_all_eq_none_iff] at hexpansions hunits
  rw [Script.given_all hexpansions, Script.given_all hunits, List.flatMap_map, List.flatMap_map,
    hnothing, List.nil_append]
  exact given_units (List.forall_mem_map.1 hunits)

/-! ## 3. When files are given twice -/

/-- Lists of paths are apart, the empty ones aside, when all of them are. -/
theorem pairwise_disjoint_filter_iff {lists : List (List String)} :
    (lists.filter (· ≠ [])).Pairwise List.Disjoint ↔ lists.Pairwise List.Disjoint := by
  rw [List.pairwise_filter]
  refine ⟨List.Pairwise.imp ?_, List.Pairwise.imp fun h _ _ => h⟩
  intro a b hdisjoint
  -- A list that was left out is empty, and so apart from every other.
  by_cases ha : a = []
  · rw [ha]
    exact List.disjoint_nil_left b
  · by_cases hb : b = []
    · rw [hb]
      exact List.disjoint_nil_right a
    · exact hdisjoint (by simpa using ha) (by simpa using hb)

/-- Different things have lists that are apart when any two of them have. -/
theorem pairwise_disjoint_map_iff {items : List String} {f : String → List String}
    (hnodup : items.Nodup) :
    (items.map f).Pairwise List.Disjoint ↔
      ∀ s ∈ items, ∀ t ∈ items, s ≠ t → (f s).Disjoint (f t) := by
  rw [List.pairwise_map]
  constructor
  · intro h s hs t ht hne
    have hsymm : Std.Symm fun a b => (f a).Disjoint (f b) :=
      ⟨fun _ _ hab => List.disjoint_comm.1 hab⟩
    exact h.forall hs ht hne
  · intro h
    exact hnodup.pairwise_of_forall_ne h

theorem nodup_specifiers (linter : Linter) (disk : Disk) (texts : List String) :
    (linter.specifiers disk texts).Nodup := nodup_eraseDups _

/-- The texts by which the targets of a run are named. -/
def textsOf (disk : Disk) (args : List String) : List String :=
  (targetsOf disk args).map Target.raw

/-- A run over packages that comes to its end gives the engine, for each specifier that its
arguments stand for, the paths of the unit that can be read, unless there are none. No path comes
twice in one batch; and none comes in two batches exactly when no two different specifiers have a
path in common. Specifiers with the same normal form have all paths in common. -/
theorem package_run_repeats_iff {linter : Linter} {args : List String} {journal later : Journal}
    (hkind : ∀ target ∈ targetsOf disk args, target.kind = .package)
    (hrun : (linter.run disk args).runOn journal = (.ok (), later)) :
    ∃ calls, later.calls = journal.calls ++ calls ∧
      calls.map Call.paths =
        ((linter.specifiers disk (textsOf disk args)).map (linter.pathsFor disk)).filter (· ≠ []) ∧
      (∀ call ∈ calls, call.paths.Nodup) ∧
      (calls.Pairwise (fun a b => a.paths.Disjoint b.paths) ↔
        ∀ s ∈ linter.specifiers disk (textsOf disk args),
          ∀ t ∈ linter.specifiers disk (textsOf disk args),
            s ≠ t → (linter.pathsFor disk s).Disjoint (linter.pathsFor disk t)) ∧
      ∀ s t spec, Specifier.parse? s = some spec → Specifier.parse? t = some spec →
        linter.pathsFor disk s = linter.pathsFor disk t := by
  have hscript : linter.script disk args = Script.andThen
      { moves := [.note (opening ⟨.package, targetsOf disk args⟩)] }
      (linter.scriptOfPackages disk (textsOf disk args)) := script_eq linter hkind
  rw [run_eq_play] at hrun
  -- The run has come to its end, so the engine did not crash and the script was not cut short.
  rcases linter.reporter.play_ends (linter.script disk args) journal with
    ⟨later', hlater, hcalls⟩ | ⟨message, later', hlater, -⟩
  · rw [hrun] at hlater
    obtain ⟨hending, rfl⟩ := Prod.mk.inj hlater
    rw [eq_comm, Script.outcome_eq_ok_iff, hscript, Script.ending_andThen_eq_none_iff] at hending
    have hgiven := given_scriptOfPackages hending.2
    rw [hscript, Script.given_andThen rfl, show Script.given { moves := [.note _] } = [] from rfl,
      List.nil_append] at hcalls
    have hpaths : (((linter.scriptOfPackages disk (textsOf disk args)).given.map
        linter.reporter.callOn).map Call.paths) =
        ((linter.specifiers disk (textsOf disk args)).map (linter.pathsFor disk)).filter
          (· ≠ []) := by
      rw [List.map_map]
      exact hgiven
    refine ⟨_, hcalls, hpaths, ?_, ?_, fun s t spec => linter.pathsFor_of_parse?⟩
    · -- A call has the paths of some specifier, and a unit has no path twice.
      intro call hcall
      have hmem := hpaths ▸ List.mem_map_of_mem (f := Call.paths) hcall
      obtain ⟨s, -, hs⟩ := List.mem_map.1 (List.mem_filter.1 hmem).1
      exact hs ▸ linter.nodup_pathsFor disk s
    · rw [← List.pairwise_map (f := Call.paths) (R := List.Disjoint), hpaths,
        pairwise_disjoint_filter_iff, pairwise_disjoint_map_iff (nodup_specifiers _ _ _)]
  · rw [hrun] at hlater
    cases hlater

/-! ## 4. A file that is given twice -/

/-- A disk with a package that holds a module. -/
def withModule : Disk where
  root := .directory
    [("pkg", .directory [("__init__.py", .file .empty), ("sub.py", .file .empty)])]
  here := []

namespace withModule

open Package

theorem isDirectory_pkg : withModule.isDirectory "/pkg" = true := by
  have hnode : withModule.node "/pkg" =
      .ok (.directory [("__init__.py", .file .empty), ("sub.py", .file .empty)]) :=
    Disk.node_of_spellsOut rfl (show Disk.SpellsOut _ ["pkg"] by decide) rfl
      (Node.directory_ne_link _)
  exact Disk.isDirectory_iff.2 ⟨_, hnode⟩

theorem probeAt_pkg : probeAt withModule "pkg" "/" = .ok (.package "/pkg") := by
  have hinside : inside "/" "pkg" = "/pkg" := by decide
  have hprobe : probeAt withModule "pkg" "/" = .ok (.package (inside "/" "pkg")) :=
    probeAt_slash rfl rfl (by decide) rfl
  rwa [hinside] at hprobe

/-- What looks the module up. -/
def finder : Finder := .ofDirectory withModule "/pkg"

theorem place_finder : finder.place = "/pkg" := by
  rw [finder, Finder.place_ofDirectory, anchored_of_head (by decide)]

/-- There is no directory of the name of the module. -/
theorem not_hasInitialFile_sub : ¬finder.hasInitialFile "sub" = true := by
  have hbelow : ∀ suffix ∈ moduleSuffixes,
      Disk.SpellsOut (inside (inside "/pkg" "sub") ("__init__" ++ suffix))
        (["pkg"] ++ "sub" :: ["__init__" ++ suffix]) := by decide
  rw [Finder.hasInitialFile, List.any_eq_true]
  rintro ⟨suffix, hsuffix, hfile⟩
  have hnothing : withModule.node (inside (inside "/pkg" "sub") ("__init__" ++ suffix)) =
      .error .missing :=
    Disk.node_of_spellsOut_of_find?_eq_none rfl (hbelow suffix hsuffix) rfl rfl
  rw [place_finder, finder, Finder.isFile_ofDirectory, Disk.isFile, hnothing] at hfile
  cases hfile

/-- Of the files that may hold the module the first that is there is the source file. -/
theorem find?_moduleFiles_sub :
    (finder.moduleFiles "sub").find? finder.isFile = some "/pkg/sub.py" := by
  have habsent : ∀ file ∈ ["sub.cpython-311-x86_64-linux-gnu.so", "sub.abi3.so", "sub.so"],
      withModule.isFile (inside "/pkg" file) = false := by
    have hspells : ∀ file ∈ ["sub.cpython-311-x86_64-linux-gnu.so", "sub.abi3.so", "sub.so"],
        Disk.SpellsOut (inside "/pkg" file) (["pkg"] ++ file :: []) ∧
          file ∉ ["__init__.py", "sub.py"] := by decide
    intro file hmem
    obtain ⟨hfile, hnot⟩ := hspells file hmem
    have hnothing : withModule.node (inside "/pkg" file) = .error .missing :=
      Disk.node_of_spellsOut_of_find?_eq_none rfl hfile rfl (Entries.find?_eq_none_iff.2 hnot)
    rw [Disk.isFile, hnothing]
  have hpresent : withModule.isFile (inside "/pkg" "sub.py") = true := by
    have hnode : withModule.node (inside "/pkg" "sub.py") = .ok (.file .empty) :=
      Disk.node_of_spellsOut rfl (show Disk.SpellsOut _ ["pkg", "sub.py"] by decide) rfl
        (Node.file_ne_link _)
    exact Disk.isFile_iff.2 ⟨_, hnode⟩
  simp only [List.forall_mem_cons] at habsent
  obtain ⟨hfirst, hsecond, hthird, -⟩ := habsent
  rw [Finder.moduleFiles, place_finder, finder, Finder.suffixes_ofDirectory,
    Finder.isFile_ofDirectory,
    show (moduleSuffixes.map fun suffix => inside "/pkg" ("sub" ++ suffix)) =
      (["sub.cpython-311-x86_64-linux-gnu.so", "sub.abi3.so", "sub.so", "sub.py", "sub.pyc"].map
        (inside "/pkg")) by decide]
  simp only [List.map_cons, List.find?_cons, hfirst, hsecond, hthird, hpresent]
  decide

theorem probeAt_sub : probeAt withModule "sub" "/pkg" = .ok (.module "/pkg/sub.py") := by
  have hfinder : finder? withModule "/pkg" = .ok (some finder) :=
    finder?_of_head (by decide) isDirectory_pkg
  rw [probeAt_of_finder? hfinder, Finder.probe_eq, if_neg not_hasInitialFile_sub,
    find?_moduleFiles_sub]

theorem unit_sub {text : String} (h : Specifier.parse? text = some ⟨["pkg", "sub"]⟩) :
    Package.unit withModule [] text "." =
      .ok { directory := "/pkg", name := "pkg.sub", sources := ["sub.py"] } := by
  have hbase : Path.absolute withModule.cwd "." = "/" :=
    Disk.absolute_dot (List.forall_mem_nil _)
  have hpkg : step withModule [] "pkg" ["/"] = .ok (some (.package "/pkg")) := by
    rw [step, lookUp_cons_package probeAt_pkg]
  have hsub : step withModule ["pkg"] "sub" ["/pkg"] = .ok (some (.module "/pkg/sub.py")) := by
    rw [step, lookUp, probeAt_sub]
  have hlocate : locate withModule [] "." ⟨["pkg", "sub"]⟩ = .ok (.module "/pkg/sub.py") := by
    rw [locate, hbase, locateFrom_cons_of_step hpkg]
    exact locateFrom_cons_of_step hsub
  have habsolute : Path.absolute withModule.cwd "/pkg/sub.py" = "/pkg/sub.py" := by
    rw [Path.absolute, if_pos (Path.isAbsolute_iff.2 (by decide))]
    decide
  have hdisplay : withModule.display "/pkg/sub.py" = "/pkg/sub.py" := by
    have houtside : ¬"/pkg/sub.py".startsWith (withModule.cwd ++ "/") = true := by
      rw [Bool.not_eq_true, String.startsWith_string_eq_false_iff]
      decide
    rw [Disk.display, habsolute, if_neg (by decide), if_neg houtside]
  rw [unit_of_parse? h, hlocate]
  show moduleUnit withModule "pkg.sub" "/pkg/sub.py" = _
  rw [moduleUnit, if_pos (by decide), hdisplay]
  decide

end withModule

/-- The module is named with a dot and with a slash. -/
def bothSpellings : List String := ["pkg.sub", "pkg/sub"]

theorem targetsOf_bothSpellings :
    targetsOf withModule bothSpellings =
      [⟨"pkg.sub", .package, false⟩, ⟨"pkg/sub", .package, false⟩] := by
  have hdotted : withModule.node "pkg.sub" = .error .missing :=
    Disk.node_of_spellsOut_of_find?_eq_none rfl
      (show Disk.SpellsOut _ ([] ++ "pkg.sub" :: []) by decide) rfl (by decide)
  have hslashed : withModule.node "pkg/sub" = .error .missing :=
    Disk.node_of_spellsOut_of_find?_eq_none rfl
      (show Disk.SpellsOut _ (["pkg"] ++ "sub" :: []) by decide) rfl (by decide)
  show [Target.classify withModule "pkg.sub", Target.classify withModule "pkg/sub"] = _
  rw [classify_of_node_eq_error (by decide) hdotted, classify_of_node_eq_error (by decide) hslashed]

theorem kind_bothSpellings :
    ∀ target ∈ targetsOf withModule bothSpellings, target.kind = .package := by
  rw [targetsOf_bothSpellings]
  decide

/-- Both spellings lead to the unit of the module, of which the one file can be read. -/
theorem scriptOfUnit_bothSpellings : ∀ arg ∈ bothSpellings,
    scriptOfUnit withModule (Package.unit withModule quiet.search arg ".") =
      { moves := [.note "unit=pkg.sub dir=/pkg files=1", .give [("/pkg/sub.py", .empty)]] } := by
  have hread : withModule.read "/pkg/sub.py" = .ok .empty := by
    have hnode : withModule.node "/pkg/sub.py" = .ok (.file .empty) :=
      Disk.node_of_spellsOut rfl (show Disk.SpellsOut _ ["pkg", "sub.py"] by decide) rfl
        (Node.file_ne_link _)
    exact Disk.read_eq_ok hnode
  have hreading : Reading.ofPaths withModule ["/pkg/sub.py"] =
      .ok { sources := [("/pkg/sub.py", .empty)] } := by
    rw [Reading.ofPaths, Reading.readAll, Reading.readNext, hread]
    rfl
  have hfiles : SourceUnit.files
      { directory := "/pkg", name := "pkg.sub", sources := ["sub.py"] } = ["/pkg/sub.py"] := by
    have hjoin : Path.join "/pkg" "sub.py" = "/pkg/sub.py" := by
      rw [Path.join, if_neg (by rw [Path.isAbsolute_iff]; decide)]
      decide
    rw [SourceUnit.files, if_neg (by decide), show SourceUnit.names _ = ["sub.py"] by decide,
      List.map_singleton, hjoin]
  have hparse : ∀ arg ∈ bothSpellings, Specifier.parse? arg = some ⟨["pkg", "sub"]⟩ := by decide
  intro arg harg
  rw [show quiet.search = [] from rfl, withModule.unit_sub (hparse arg harg), scriptOfUnit,
    hfiles, scriptOfBatch,
    show (Batch.ofPaths "pkg.sub" ["/pkg/sub.py"]).paths = ["/pkg/sub.py"] by decide, hreading]
  rfl

/-- The two spellings are two specifiers, so there are two units. -/
theorem script_bothSpellings : quiet.script withModule bothSpellings =
    { moves := [.note "run kind=packages targets=2",
        .note "unit=pkg.sub dir=/pkg files=1", .give [("/pkg/sub.py", .empty)],
        .note "unit=pkg.sub dir=/pkg files=1", .give [("/pkg/sub.py", .empty)]] } := by
  have hspecifiers : quiet.specifiers withModule bothSpellings = bothSpellings := by
    rw [specifiers, bothSpellings, List.flatMap_cons, List.flatMap_cons, List.flatMap_nil,
      specifiersOf_of_not_hasMarker (by decide), specifiersOf_of_not_hasMarker (by decide)]
    decide
  have hexpansion : ∀ arg ∈ bothSpellings, quiet.scriptOfExpansion withModule arg = {} := by
    have hmarkers : ∀ arg ∈ bothSpellings, ¬hasMarker arg = true := by decide
    intro arg harg
    rw [scriptOfExpansion, Package.expand, if_neg (hmarkers arg harg)]
  have htexts :
      Plan.arguments ⟨.package, targetsOf withModule bothSpellings⟩ = bothSpellings := by
    rw [targetsOf_bothSpellings]
    rfl
  rw [script_eq quiet kind_bothSpellings, scriptOfPlan, scriptOfPackages, htexts, hspecifiers,
    List.map_congr_left hexpansion, List.map_congr_left scriptOfUnit_bothSpellings,
    targetsOf_bothSpellings]
  rfl

/-- The file of the module is given to the engine for each of its spellings. -/
theorem runOn_bothSpellings : ∃ later,
    (quiet.run withModule bothSpellings).runOn {} = (.ok (), later) ∧
      later.calls.map Call.paths = [["/pkg/sub.py"], ["/pkg/sub.py"]] := by
  rw [run_eq_play, script_bothSpellings]
  exact ⟨_, rfl, rfl⟩

/-- Two spellings of one module have the same normal form, and yet the file of the module is given
to the engine by two calls of one run. -/
theorem run_repeats : ∃ later,
    (∀ target ∈ targetsOf withModule bothSpellings, target.kind = .package) ∧
    Specifier.parse? "pkg.sub" = Specifier.parse? "pkg/sub" ∧
    (quiet.run withModule bothSpellings).runOn {} = (.ok (), later) ∧
    ¬later.calls.Pairwise fun a b => a.paths.Disjoint b.paths := by
  obtain ⟨later, hrun, hcalls⟩ := runOn_bothSpellings
  refine ⟨later, kind_bothSpellings, by decide, hrun, ?_⟩
  rw [← List.pairwise_map (f := Call.paths) (R := List.Disjoint), hcalls, List.pairwise_pair]
  exact fun hdisjoint => hdisjoint List.mem_cons_self List.mem_cons_self

/-- The two specifiers are different and have a path in common. -/
theorem repeats_withModule :
    ¬∀ s ∈ quiet.specifiers withModule (textsOf withModule bothSpellings),
      ∀ t ∈ quiet.specifiers withModule (textsOf withModule bothSpellings),
        s ≠ t → (quiet.pathsFor withModule s).Disjoint (quiet.pathsFor withModule t) := by
  obtain ⟨later, hrun, hcalls⟩ := runOn_bothSpellings
  obtain ⟨calls, hlater, -, -, hapart, -⟩ := package_run_repeats_iff kind_bothSpellings hrun
  intro hdisjoint
  -- If the paths were apart, so would be the two calls, but they hold the same path.
  have hpairwise := hapart.2 hdisjoint
  rw [← List.pairwise_map (f := Call.paths) (R := List.Disjoint), ← List.nil_append calls,
    show [] ++ calls = later.calls from hlater.symm, hcalls, List.pairwise_pair] at hpairwise
  exact hpairwise List.mem_cons_self List.mem_cons_self

end Linter

end LintFront
