import LintFront.Proofs.Directory.Expansion
import LintFront.Proofs.Run.Inspection
import LintFront.Proofs.Run.Reading
import LintFront.Proofs.Run.Targets
import Mathlib.Data.List.Nodup
/-!
# What a directory run gives to the engine

A run over directories gives the engine one batch for each directory that is covered and holds
source files, and in it exactly these files. That nothing is lost rests on the walk visiting every
directory that is covered; that nothing is given twice rests on the normal spelling, which makes one
path of all the spellings by which a directory is named.

What remains after that is bookkeeping: the script of a directory gives one batch or none, and the
batches of the run are those of the directories in order.

## Main statements

`Linter.directory_run_covers`: what a run over directories gives to the engine.
-/

namespace LintFront

variable {disk : Disk}

/-! ## 1. The script of one directory -/

namespace Linter

variable {d : String} {entries : Entries Node}

/-- A directory without source files gives nothing to the engine. -/
theorem scriptOfUnit_of_isEmpty (h : disk.list d = .ok entries)
    (hnone : (Directory.eligible disk d entries).isEmpty = true) :
    (scriptOfUnit disk (Directory.unit disk d)).ending = none ∧
      (scriptOfUnit disk (Directory.unit disk d)).given = [] := by
  rw [Directory.unit_of_isEmpty h hnone]
  exact ⟨rfl, rfl⟩

/-- Files that can all be read are given to the engine in one batch, each once. -/
theorem exists_scriptOfBatch_of_readable (name : String) {paths : List String} (hne : paths ≠ [])
    (hread : ∀ path ∈ paths, ∃ content, disk.read path = .ok content) :
    ∃ batch : Sources, scriptOfBatch disk (.ofPaths name paths) = { moves := [.give batch] } ∧
      batch.map (·.1) = paths.eraseDups ∧ ∀ file ∈ batch, disk.read file.1 = .ok file.2 := by
  obtain ⟨batch, hreading, hpaths, hcontents⟩ :=
    Reading.exists_ofPaths_of_readable (nodup_eraseDups paths) fun path hpath =>
      hread path (List.mem_eraseDups.1 hpath)
  have hsome : ¬batch.isEmpty = true := by
    rw [List.isEmpty_iff]
    rintro rfl
    obtain ⟨path, hpath⟩ := List.exists_mem_of_ne_nil _ hne
    rw [List.map_nil] at hpaths
    exact absurd (List.mem_eraseDups.2 hpath) (hpaths ▸ List.not_mem_nil)
  refine ⟨batch, ?_, hpaths, hcontents⟩
  rw [scriptOfBatch, Batch.ofPaths, hreading]
  dsimp only
  rw [if_neg hsome]
  rfl

/-- A directory with source files gives one batch to the engine, and in it each of them once. -/
theorem scriptOfUnit_of_not_isEmpty (h : disk.list d = .ok entries)
    (hnames : ∀ name ∈ entries.names, Node.IsName name)
    (hsome : (Directory.eligible disk d entries).isEmpty = false) :
    (scriptOfUnit disk (Directory.unit disk d)).ending = none ∧
      ∃ batch, (scriptOfUnit disk (Directory.unit disk d)).given = [batch] ∧
        (batch.map (·.1)).Nodup ∧
        (∀ path, path ∈ batch.map (·.1) ↔ ∃ name, Directory.IsSource disk d entries name ∧
          path = Directory.pathIn d name) ∧
        ∀ file ∈ batch, disk.read file.1 = .ok file.2 := by
  rw [Directory.unit_of_not_isEmpty h hsome]
  generalize hunit : SourceUnit.ofNames d _ (Directory.eligible disk d entries) = unit
  have hfiles : ∀ path, path ∈ unit.files ↔ ∃ name, Directory.IsSource disk d entries name ∧
      path = Directory.pathIn d name := by
    rw [← hunit]
    exact fun path => Directory.mem_files_iff
  have hread : ∀ path ∈ unit.files, ∃ content, disk.read path = .ok content := by
    intro path hpath
    obtain ⟨name, hname, rfl⟩ := (hfiles path).1 hpath
    exact Directory.exists_read_pathIn (Path.isComponent_of_isName (hnames name hname.listed))
      hname.isFile
  obtain ⟨name, hname⟩ := Directory.isEmpty_eligible_eq_false_iff.1 hsome
  have hne : unit.files ≠ [] := List.ne_nil_of_mem ((hfiles _).2 ⟨name, hname, rfl⟩)
  obtain ⟨batch, hscript, hpaths, hcontents⟩ :=
    exists_scriptOfBatch_of_readable unit.name hne hread
  rw [scriptOfUnit, if_neg (by rwa [List.isEmpty_iff]), hscript]
  refine ⟨rfl, batch, rfl, ?_, ?_, hcontents⟩
  · rw [hpaths]
    exact nodup_eraseDups _
  · intro path
    rw [hpaths, List.mem_eraseDups]
    exact hfiles path

/-! ## 2. The script of a run over directories -/

/-- One of the targets covers the directory with these entries, and `d` is the normal spelling of
the path down to it. -/
def IsCovered (disk : Disk) (excludes : List String) (targets : List Target) (d : String)
    (entries : Entries Node) : Prop :=
  ∃ target ∈ targets, ∃ names, target.Covers disk excludes names entries ∧ d = target.pathDown names

theorem flatMap_eq_map_filter {α β : Type} {f : α → List β} {g : α → β} {keep : α → Bool}
    {l : List α} (hkeep : ∀ a ∈ l, keep a = true → f a = [g a])
    (hdrop : ∀ a ∈ l, keep a = false → f a = []) : l.flatMap f = (l.filter keep).map g := by
  induction l with
  | nil => rfl
  | cons a l ih =>
    rw [List.flatMap_cons, ih (fun b hb => hkeep b (List.mem_cons_of_mem _ hb))
      fun b hb => hdrop b (List.mem_cons_of_mem _ hb)]
    cases ha : keep a with
    | true => rw [hkeep a List.mem_cons_self ha, List.filter_cons_of_pos ha]; rfl
    | false => rw [hdrop a List.mem_cons_self ha, List.filter_cons_of_neg (by simp [ha])]; rfl

/-- What is given to the engine for a directory. -/
def batchOf (disk : Disk) (d : String) : Sources :=
  (scriptOfUnit disk (Directory.unit disk d)).given.flatten

namespace IsCovered

variable {excludes : List String} {targets : List Target} (hroot : disk.root.WellFormed)
  (hplain : ∀ target ∈ targets, target.IsPlain disk excludes)
  (h : IsCovered disk excludes targets d entries)

include hroot hplain h

theorem list_eq : disk.list d = .ok entries := by
  obtain ⟨target, htarget, names, hc, rfl⟩ := h
  have hfits := (hplain target htarget).fits names entries hc
  exact hc.list_pathDown hroot (hplain target htarget).noParents hfits

theorem tidy_eq : Path.tidy d = d := by
  obtain ⟨target, htarget, names, hc, rfl⟩ := h
  exact hc.tidy_pathDown hroot (hplain target htarget).noParents

omit hplain in
theorem isName : ∀ name ∈ entries.names, Node.IsName name := by
  obtain ⟨target, htarget, names, hc, rfl⟩ := h
  exact hc.isName_entries hroot

/-- The script of a directory that is covered comes to its end. -/
theorem ending_eq : (scriptOfUnit disk (Directory.unit disk d)).ending = none := by
  have hlist := h.list_eq hroot hplain
  by_cases hsome : (Directory.eligible disk d entries).isEmpty = false
  · exact (scriptOfUnit_of_not_isEmpty hlist (h.isName hroot) hsome).1
  · exact (scriptOfUnit_of_isEmpty hlist (by simpa using hsome)).1

theorem given_eq_nil (hnone : ¬∃ name, Directory.IsSource disk d entries name) :
    (scriptOfUnit disk (Directory.unit disk d)).given = [] := by
  have hempty : (Directory.eligible disk d entries).isEmpty = true := by
    rw [← Directory.isEmpty_eligible_eq_false_iff] at hnone
    simpa using hnone
  exact (scriptOfUnit_of_isEmpty (h.list_eq hroot hplain) hempty).2

/-- The script of a directory that is covered and holds source files gives one batch of them. -/
theorem given_eq (hsome : ∃ name, Directory.IsSource disk d entries name) :
    (scriptOfUnit disk (Directory.unit disk d)).given = [batchOf disk d] ∧
      ((batchOf disk d).map (·.1)).Nodup ∧
      (∀ path, path ∈ (batchOf disk d).map (·.1) ↔ ∃ name,
        Directory.IsSource disk d entries name ∧ path = Directory.pathIn d name) ∧
      ∀ file ∈ batchOf disk d, disk.read file.1 = .ok file.2 := by
  obtain ⟨-, batch, hgiven, hbatch⟩ := scriptOfUnit_of_not_isEmpty (h.list_eq hroot hplain)
    (h.isName hroot) (Directory.isEmpty_eligible_eq_false_iff.2 hsome)
  have hbatchOf : batchOf disk d = batch := by
    rw [batchOf, hgiven]
    exact List.append_nil batch
  rw [hbatchOf]
  exact ⟨hgiven, hbatch⟩

end IsCovered

/-! ## 3. The batches of a run -/

/-- The batches of these directories hold exactly the source files of the directories that the
targets cover, directory by directory. -/
structure CoversExactly (disk : Disk) (excludes : List String) (targets : List Target)
    (directories : List String) (batch : String → Sources) : Prop where
  nodup : directories.Nodup
  /-- There is a batch for every directory that is covered and holds source files. -/
  mem_directories : ∀ d, d ∈ directories ↔ ∃ entries, IsCovered disk excludes targets d entries ∧
    ∃ name, Directory.IsSource disk d entries name
  /-- In the batch of a directory are the paths of its source files. -/
  mem_batch : ∀ d ∈ directories, ∀ path, path ∈ (batch d).map (·.1) ↔ ∃ entries name,
    IsCovered disk excludes targets d entries ∧ Directory.IsSource disk d entries name ∧
    path = Directory.pathIn d name
  /-- No path is given twice, neither in one batch nor in two. -/
  once : (directories.flatMap fun d => (batch d).map (·.1)).Nodup
  contents : ∀ d ∈ directories, ∀ file ∈ batch d, disk.read file.1 = .ok file.2

variable {excludes : List String} {targets : List Target}

/-- What two directories that are covered give to the engine are different paths. -/
theorem disjoint_of_ne (hroot : disk.root.WellFormed)
    (hplain : ∀ target ∈ targets, target.IsPlain disk excludes) {d d' name name' : String}
    {entries entries' : Entries Node} (h : IsCovered disk excludes targets d entries)
    (h' : IsCovered disk excludes targets d' entries')
    (hname : Directory.IsSource disk d entries name)
    (hname' : Directory.IsSource disk d' entries' name')
    (hpath : Directory.pathIn d name = Directory.pathIn d' name') : d = d' :=
  (Directory.pathIn_inj (h.tidy_eq hroot hplain) (h'.tidy_eq hroot hplain)
    (Path.isComponent_of_isName (h.isName hroot name hname.listed))
    (Path.isComponent_of_isName (h'.isName hroot name' hname'.listed)) hpath).1

/-- What a path leads to hangs on the path alone, whichever target covers it. -/
theorem IsCovered.entries_eq (hroot : disk.root.WellFormed)
    (hplain : ∀ target ∈ targets, target.IsPlain disk excludes) {d : String}
    {entries entries' : Entries Node} (h : IsCovered disk excludes targets d entries)
    (h' : IsCovered disk excludes targets d entries') : entries = entries' :=
  Except.ok.inj ((h.list_eq hroot hplain).symm.trans (h'.list_eq hroot hplain))

/-- In a directory with one source file this file is what is given. -/
theorem CoversExactly.mem_batch_of_only {directories : List String} {batch : String → Sources}
    (hcovers : CoversExactly disk excludes targets directories batch)
    (hroot : disk.root.WellFormed) (hplain : ∀ target ∈ targets, target.IsPlain disk excludes)
    {d only path : String} {entries : Entries Node}
    (h : IsCovered disk excludes targets d entries)
    (honly : ∀ name, Directory.IsSource disk d entries name ↔ name = only) :
    path ∈ (batch d).map (·.1) ↔ path = Directory.pathIn d only := by
  have hmem := (hcovers.mem_directories d).2 ⟨entries, h, only, (honly only).2 rfl⟩
  rw [hcovers.mem_batch d hmem]
  constructor
  · rintro ⟨entries', name, h', hname, rfl⟩
    obtain rfl := h.entries_eq hroot hplain h'
    rw [(honly name).1 hname]
  · rintro rfl
    exact ⟨entries, only, h, (honly only).2 rfl, rfl⟩

/-- The batches of the directories that are covered and hold source files are what is to be
given. -/
theorem coversExactly_of_mem_iff (hroot : disk.root.WellFormed)
    (hplain : ∀ target ∈ targets, target.IsPlain disk excludes) {directories : List String}
    (hnodup : directories.Nodup)
    (hmem : ∀ d, d ∈ directories ↔ ∃ entries, IsCovered disk excludes targets d entries ∧
      ∃ name, Directory.IsSource disk d entries name) :
    CoversExactly disk excludes targets directories (batchOf disk) := by
  constructor
  case nodup => exact hnodup
  case mem_directories => exact hmem
  case mem_batch =>
    intro d hd path
    obtain ⟨entries, h, hsome⟩ := (hmem d).1 hd
    rw [(h.given_eq hroot hplain hsome).2.2.1]
    constructor
    · rintro ⟨name, hname, hpath⟩
      exact ⟨entries, name, h, hname, hpath⟩
    · rintro ⟨entries', name, h', hname, hpath⟩
      obtain rfl := h.entries_eq hroot hplain h'
      exact ⟨name, hname, hpath⟩
  case once =>
    -- Within one batch the paths are distinct, and those of two batches lie in two directories.
    rw [List.nodup_flatMap]
    constructor
    · intro d hd
      obtain ⟨entries, h, hsome⟩ := (hmem d).1 hd
      exact (h.given_eq hroot hplain hsome).2.1
    · refine hnodup.imp_of_mem ?_
      intro d d' hd hd' hne path hpath hpath'
      obtain ⟨entries, h, hsome⟩ := (hmem d).1 hd
      obtain ⟨entries', h', hsome'⟩ := (hmem d').1 hd'
      obtain ⟨name, hname, rfl⟩ := ((h.given_eq hroot hplain hsome).2.2.1 path).1 hpath
      obtain ⟨name', hname', heq⟩ := ((h'.given_eq hroot hplain hsome').2.2.1 _).1 hpath'
      exact hne (disjoint_of_ne hroot hplain h h' hname hname' heq)
  case contents =>
    intro d hd
    obtain ⟨entries, h, hsome⟩ := (hmem d).1 hd
    exact (h.given_eq hroot hplain hsome).2.2.2

/-- Directories that are all covered, and among which are all that hold source files, give to the
engine what is to be given. -/
theorem exists_coversExactly (hroot : disk.root.WellFormed)
    (hplain : ∀ target ∈ targets, target.IsPlain disk excludes) {visited : List String}
    (hnodup : visited.Nodup)
    (hcovered : ∀ d ∈ visited, ∃ entries, IsCovered disk excludes targets d entries)
    (hall : ∀ d entries name, IsCovered disk excludes targets d entries →
      Directory.IsSource disk d entries name → d ∈ visited) :
    ∃ directories batch,
      (visited.flatMap fun d => (scriptOfUnit disk (Directory.unit disk d)).given) =
        directories.map batch ∧
      CoversExactly disk excludes targets directories batch := by
  have hholds : ∀ d entries, IsCovered disk excludes targets d entries →
      (Directory.holdsSources disk d = true ↔ ∃ name, Directory.IsSource disk d entries name) :=
    fun d entries h => Directory.holdsSources_iff (h.list_eq hroot hplain)
  refine ⟨visited.filter (Directory.holdsSources disk), batchOf disk, ?_, ?_⟩
  · -- A directory gives its one batch when it holds source files, and nothing when it does not.
    apply flatMap_eq_map_filter
    · intro d hd hkept
      obtain ⟨entries, h⟩ := hcovered d hd
      exact (h.given_eq hroot hplain ((hholds d entries h).1 hkept)).1
    · intro d hd hdropped
      obtain ⟨entries, h⟩ := hcovered d hd
      refine h.given_eq_nil hroot hplain fun hsome => ?_
      rw [(hholds d entries h).2 hsome] at hdropped
      cases hdropped
  · refine coversExactly_of_mem_iff hroot hplain (hnodup.filter _) ?_
    intro d
    rw [List.mem_filter]
    constructor
    · rintro ⟨hd, hkept⟩
      obtain ⟨entries, h⟩ := hcovered d hd
      exact ⟨entries, h, (hholds d entries h).1 hkept⟩
    · rintro ⟨entries, h, name, hname⟩
      exact ⟨hall d entries name h hname, (hholds d entries h).2 ⟨name, hname⟩⟩

/-! ## 4. The run -/

/-- What a run over directories gives to an engine that keeps its promise. The run comes to its end;
there is one call for each directory that is covered and holds source files, and in it are exactly
these files. -/
theorem directory_run_covers {linter : Linter} {disk : Disk} {args : List String}
    (hroot : disk.root.WellFormed) (hengine : linter.reporter.engine.IsFaithful)
    (hkind : ∀ target ∈ targetsOf disk args, target.kind = .directory)
    (hplain : ∀ target ∈ targetsOf disk args, target.IsPlain disk linter.excludes)
    (journal : Journal) :
    ∃ (later : Journal) (directories : List String) (batch : String → Sources),
      (linter.run disk args).runOn journal = (.ok (), later) ∧
      later.calls = journal.calls ++ directories.map (fun d => linter.reporter.callOn (batch d)) ∧
      CoversExactly disk linter.excludes (targetsOf disk args) directories batch := by
  have hnode : ∀ target ∈ targetsOf disk args,
      ∃ top, disk.node target.path = .ok (.directory top) := by
    intro target htarget
    obtain ⟨arg, -, rfl⟩ := List.mem_map.1 htarget
    exact Target.exists_node_of_classify (hkind _ htarget)
  obtain ⟨visited, hexpand, hnodup, hvisited⟩ := mem_expandDirectories hroot hplain hnode
  have hcovered : ∀ d ∈ visited, ∃ entries,
      IsCovered disk linter.excludes (targetsOf disk args) d entries := by
    intro d hd
    obtain ⟨target, htarget, names, entries, hc, hpath, -⟩ := (hvisited d).1 hd
    exact ⟨entries, target, htarget, names, hc, hpath⟩
  obtain ⟨directories, batch, hgiven, hcovers⟩ :=
    exists_coversExactly hroot hplain hnodup hcovered fun d entries name h hname => by
      obtain ⟨target, htarget, names, hc, hpath⟩ := h
      exact (hvisited d).2 ⟨target, htarget, names, entries, hc, hpath, fun _ => ⟨name, hname⟩⟩
  have hending : ∀ script ∈ visited.map fun d => scriptOfUnit disk (Directory.unit disk d),
      script.ending = none := by
    intro script hscript
    obtain ⟨d, hd, rfl⟩ := List.mem_map.1 hscript
    obtain ⟨entries, h⟩ := hcovered d hd
    exact h.ending_eq hroot hplain
  have hscript := linter.script_eq hkind
  dsimp only [scriptOfPlan] at hscript
  rw [scriptOfDirectories, hexpand] at hscript
  have hends : (linter.script disk args).ending = none := by
    rw [hscript, Script.ending_andThen_eq_none_iff, Script.ending_all_eq_none_iff]
    exact ⟨rfl, hending⟩
  have hgives : (linter.script disk args).given = directories.map batch := by
    rw [hscript, Script.given_andThen rfl, Script.given_all hending, List.flatMap_map, hgiven]
    rfl
  refine ⟨((linter.run disk args).runOn journal).2, directories, batch, ?_, ?_, hcovers⟩
  · have hfst := Reporter.fst_play hengine (linter.script disk args) journal
    rw [← run_eq_play, Script.outcome_eq_ok_iff.2 hends] at hfst
    rw [← hfst]
  · rw [run_eq_play, Reporter.calls_play hengine, hgives, List.map_map]
    rfl

/-- A linter with nothing to say that skips one name. -/
def ungenerated : Linter := { quiet with excludes := ["gen"] }

/-- The entries of a package: a file, a directory with the name that is skipped, a link and another
directory, to which the link leads. -/
def packageEntries : Entries Node :=
  [("a.py", .file .empty), ("gen", .directory [("c.py", .file .empty)]), ("link", .link "sub"),
    ("sub", .directory [("b.py", .file .empty)])]

/-- A disk with this package. -/
def annexed : Disk where
  root := .directory [("pkg", .directory packageEntries)]
  here := []

theorem node_package : annexed.node "pkg" = .ok (.directory packageEntries) :=
  Disk.node_of_spellsOut rfl (show Disk.SpellsOut _ ["pkg"] by decide) rfl
    (Node.directory_ne_link _)

theorem node_annex : annexed.node "pkg//sub" = .ok (.directory [("b.py", .file .empty)]) :=
  Disk.node_of_spellsOut rfl (show Disk.SpellsOut _ ["pkg", "sub"] by decide) rfl
    (Node.directory_ne_link _)

theorem targetsOf_annexed : targetsOf annexed ["pkg/...", "pkg//sub"] =
    [⟨"pkg/...", .directory, true⟩, ⟨"pkg//sub", .directory, false⟩] := by
  have hstem : stripMarker "pkg/..." = "pkg" := by decide
  have hpackage : Target.classify annexed "pkg/..." = ⟨"pkg/...", .directory, true⟩ :=
    classify_of_hasMarker (by decide) (hstem ▸ node_package)
  have hannex : Target.classify annexed "pkg//sub" = ⟨"pkg//sub", .directory, false⟩ :=
    classify_of_node_eq_directory (by decide) node_annex
  exact congrArg₂ (fun package annex => [package, annex]) hpackage hannex

/-- The recursive target covers the package and one directory in it: the other is skipped, and the
link is not followed. -/
theorem eq_of_covers_package {names : List String} {entries : Entries Node}
    (h : Target.Covers annexed ["gen"] ⟨"pkg/...", .directory, true⟩ names entries) :
    names = [] ∧ entries = packageEntries ∨
      names = ["sub"] ∧ entries = [("b.py", .file .empty)] := by
  obtain ⟨node, hnode, hat⟩ := h.leads
  obtain rfl : Node.directory packageEntries = node :=
    Except.ok.inj (node_package.symm.trans hnode)
  have hpackage : (Node.directory packageEntries).WellFormed := Node.isWellFormed_iff.1 (by decide)
  have hmem := (Node.mem_branches hpackage).2 ⟨⟨_, hat⟩, h.kept⟩
  rcases Node.mem_branches_directory.1 hmem with
    rfl | ⟨name, rest, child, rfl, hentry, hkept, hrest⟩
  · exact .inl ⟨rfl, (Node.directory.inj (Option.some.inj hat)).symm⟩
  · -- Two of the entries are directories, and one of these is skipped.
    simp only [packageEntries, List.mem_cons, List.not_mem_nil, or_false, Prod.mk.injEq] at hentry
    rcases hentry with ⟨rfl, rfl⟩ | ⟨rfl, rfl⟩ | ⟨rfl, rfl⟩ | ⟨rfl, rfl⟩
    · cases hrest
    · exact absurd hkept (by decide +kernel)
    · cases hrest
    · rcases Node.mem_branches_directory.1 hrest with rfl | ⟨_, _, _, -, hentry, -, hbelow⟩
      · exact .inr ⟨rfl, (Node.directory.inj (Option.some.inj hat)).symm⟩
      · obtain ⟨-, rfl⟩ := Prod.mk.inj (List.mem_singleton.1 hentry)
        cases hbelow

theorem eq_of_covers_annex {names : List String} {entries : Entries Node}
    (h : Target.Covers annexed ["gen"] ⟨"pkg//sub", .directory, false⟩ names entries) :
    names = [] ∧ entries = [("b.py", .file .empty)] := by
  obtain rfl := h.below rfl
  obtain ⟨node, hnode, hat⟩ := h.leads
  obtain rfl := Except.ok.inj (node_annex.symm.trans hnode)
  exact ⟨rfl, (Node.directory.inj (Option.some.inj hat)).symm⟩

/-- The targets overlap in the directory that is not skipped. -/
theorem isCovered_annexed_iff {d : String} {entries : Entries Node} :
    IsCovered annexed ["gen"] (targetsOf annexed ["pkg/...", "pkg//sub"]) d entries ↔
      d = "pkg" ∧ entries = packageEntries ∨
        d = "pkg/sub" ∧ entries = [("b.py", .file .empty)] := by
  have hdown : Target.pathDown ⟨"pkg/...", .directory, true⟩ ["sub"] = "pkg/sub" := by
    decide +kernel
  rw [targetsOf_annexed]
  constructor
  · rintro ⟨target, htarget, names, hc, rfl⟩
    rcases List.mem_pair.1 htarget with rfl | rfl
    · rcases eq_of_covers_package hc with ⟨rfl, rfl⟩ | ⟨rfl, rfl⟩
      · exact .inl ⟨by decide, rfl⟩
      · exact .inr ⟨hdown, rfl⟩
    · obtain ⟨rfl, rfl⟩ := eq_of_covers_annex hc
      exact .inr ⟨by decide, rfl⟩
  · have hkept : ∀ name ∈ ["sub"], Directory.isSkipped ["gen"] name = false :=
      List.forall_mem_singleton.2 (by decide +kernel)
    rintro (⟨rfl, rfl⟩ | ⟨rfl, rfl⟩)
    · exact ⟨_, List.mem_cons_self, [], ⟨nofun, nofun, _, node_package, Node.at?_nil _⟩, by decide⟩
    · exact ⟨_, List.mem_cons_self, ["sub"], ⟨nofun, hkept, _, node_package, rfl⟩, hdown.symm⟩

/-- The targets can be spelled normally: there is no parent component, and no path is long. -/
theorem isPlain_annexed : ∀ target ∈ targetsOf annexed ["pkg/...", "pkg//sub"],
    target.IsPlain annexed ["gen"] := by
  intro target htarget
  rw [targetsOf_annexed] at htarget
  rcases List.mem_pair.1 htarget with rfl | rfl
  · refine ⟨by decide, fun names entries hc => ?_⟩
    unfold Disk.Fits
    rcases eq_of_covers_package hc with ⟨rfl, -⟩ | ⟨rfl, -⟩
    · decide
    · decide +kernel
  · refine ⟨by decide, fun names entries hc => ?_⟩
    obtain ⟨rfl, -⟩ := eq_of_covers_annex hc
    unfold Disk.Fits
    decide

theorem join_package : Path.join "pkg" "a.py" = "pkg/a.py" :=
  Path.join_of_endsInPiece (Path.endsInPiece_iff.2 ⟨by decide, by decide⟩)
    (mt Path.isAbsolute_iff.1 (by decide))

theorem join_annex : Path.join "pkg/sub" "b.py" = "pkg/sub/b.py" :=
  Path.join_of_endsInPiece (Path.endsInPiece_iff.2 ⟨by decide, by decide⟩)
    (mt Path.isAbsolute_iff.1 (by decide))

/-- Of the entries of the package one is a source file. -/
theorem isSource_package_iff (name : String) :
    Directory.IsSource annexed "pkg" packageEntries name ↔ name = "a.py" := by
  constructor
  · intro h
    have hmem : name ∈ ["a.py", "gen", "link", "sub"] := h.listed
    have hends := h.ending
    simp only [List.mem_cons, List.not_mem_nil, or_false] at hmem
    rcases hmem with rfl | rfl | rfl | rfl
    · rfl
    · exact absurd hends (by decide)
    · exact absurd hends (by decide)
    · exact absurd hends (by decide)
  · rintro rfl
    have hnode : annexed.node "pkg/a.py" = .ok (.file .empty) :=
      Disk.node_of_spellsOut rfl (show Disk.SpellsOut _ ["pkg", "a.py"] by decide) rfl
        (Node.file_ne_link _)
    exact .of_node (by decide) (by decide) (by decide) join_package hnode

theorem isSource_annex_iff (name : String) :
    Directory.IsSource annexed "pkg/sub" [("b.py", .file .empty)] name ↔ name = "b.py" := by
  constructor
  · exact fun h => List.mem_singleton.1 h.listed
  · rintro rfl
    have hnode : annexed.node "pkg/sub/b.py" = .ok (.file .empty) :=
      Disk.node_of_spellsOut rfl (show Disk.SpellsOut _ ["pkg", "sub", "b.py"] by decide) rfl
        (Node.file_ne_link _)
    exact .of_node (by decide) (by decide) (by decide) join_annex hnode

/-- A package with all below it, and a directory in it once more in another spelling: there is one
call for each of the two, and no file is given twice. -/
theorem covers_annexed : ∃ (later : Journal) (directories : List String) (batch : String → Sources),
    (ungenerated.run annexed ["pkg/...", "pkg//sub"]).runOn {} = (.ok (), later) ∧
    later.calls = directories.map (fun d => ungenerated.reporter.callOn (batch d)) ∧
    directories.Nodup ∧ (∀ d, d ∈ directories ↔ d = "pkg" ∨ d = "pkg/sub") ∧
    (∀ path, path ∈ (batch "pkg").map (·.1) ↔ path = "pkg/a.py") ∧
    (∀ path, path ∈ (batch "pkg/sub").map (·.1) ↔ path = "pkg/sub/b.py") ∧
    (directories.flatMap fun d => (batch d).map (·.1)).Nodup := by
  have hroot : annexed.root.WellFormed := Node.isWellFormed_iff.1 (by decide)
  have hkind : ∀ target ∈ targetsOf annexed ["pkg/...", "pkg//sub"], target.kind = .directory := by
    rw [targetsOf_annexed]
    decide
  have hfaithful : ungenerated.reporter.engine.IsFaithful := isFaithful_quiet
  obtain ⟨later, directories, batch, hrun, hcalls, hcovers⟩ :=
    directory_run_covers hroot hfaithful hkind isPlain_annexed {}
  have hpackage := isCovered_annexed_iff.2 (.inl ⟨rfl, rfl⟩)
  have hannex := isCovered_annexed_iff.2 (.inr ⟨rfl, rfl⟩)
  refine ⟨later, directories, batch, hrun, hcalls, hcovers.nodup, fun d => ?_, fun path => ?_,
    fun path => ?_, hcovers.once⟩
  · rw [hcovers.mem_directories]
    constructor
    · rintro ⟨entries, hcovered, -⟩
      exact (isCovered_annexed_iff.1 hcovered).imp And.left And.left
    · rintro (rfl | rfl)
      · exact ⟨_, hpackage, _, (isSource_package_iff _).2 rfl⟩
      · exact ⟨_, hannex, _, (isSource_annex_iff _).2 rfl⟩
  · rw [← join_package]
    exact hcovers.mem_batch_of_only hroot isPlain_annexed hpackage isSource_package_iff
  · rw [← join_annex]
    exact hcovers.mem_batch_of_only hroot isPlain_annexed hannex isSource_annex_iff

end Linter

end LintFront
