import LintFront.Proofs.Directory.Faultless
import LintFront.Proofs.FileTree.Parents
import LintFront.Proofs.Run.Coverage
import LintFront.Proofs.Run.Insertion
/-!
# The directory that an argument names

An argument is taken for a directory because the disk says that it leads to one. What is linted then
is not this directory but the one to which the normal spelling of the argument leads, and below a
recursive target the normal spelling of each path down. Where a parent component comes after a link
these are different directories, or the second does not exist, and nothing is said about it.

The files that the engine is given are described first, without a look at what the argument leads
to. That they lie where they should is then the question of the two spellings, which was answered
for paths on which no link comes before a parent component.

## Main statements

`Linter.run_lints_normal`: what a run over one directory gives to the engine, and where it lies.
`Linter.run_strays`: an argument that names one directory, and the file of another that is linted.
-/

namespace LintFront

variable {disk : Disk}

/-! ## 1. Ways down after a normal spelling -/

namespace Disk

/-- The normal spelling of a way down leads down from where the path leads, if it leads anywhere and
no link is followed on the way to a parent component. -/
theorem eq_append_of_resolve_normal_descend {path : String} {place names target : List String}
    {node : Node} (h : disk.resolve path = .ok place) (hup : disk.UnlinkedParents path)
    (hnames : ∀ name ∈ names, Node.IsName name) (hat : disk.root.at? (place ++ names) = some node)
    (hlink : ∀ text, node ≠ .link text)
    (hdown : disk.resolve (Path.normal (Directory.descend path names)) = .ok target) :
    target = place ++ names := by
  by_cases hnil : names = []
  · subst hnil
    rw [List.append_nil]
    exact Except.ok.inj (hdown.symm.trans (resolve_normal h hup))
  have hcollapse : (Path.parse (Directory.descend path names)).collapse =
      ⟨(Path.parse path).anchor, (Path.parse path).collapse.names ++ names⟩ :=
    Path.collapse_parse_descend hnames path
  have hspelled := Path.wellSpelled_collapse (Path.wellSpelled_parse (Directory.descend path names))
  have hstart : start disk.here (Path.normal (Directory.descend path names)) =
      start disk.here path :=
    start_eq_of_anchor (by rw [Path.parse_normal, hcollapse])
  -- Both the way and its beginning are followed, so the rest goes on from where the path leads.
  obtain ⟨-, -, -, hfollow⟩ := resolve_eq_ok_iff.1 hdown
  rw [hstart, Path.normal, steps_text hspelled, hcollapse, if_neg (by simp [hnil])] at hfollow
  have hfront := follow_names_collapse h hup
  obtain ⟨middle, links, hmiddle, hrest⟩ := exists_follow_of_append hfollow
  obtain rfl := Except.ok.inj (hfront.symm.trans hmiddle)
  rw [← List.append_nil names] at hrest
  have hentries := isEntryName_of_follow hnames hat hlink hrest
  exact Except.ok.inj (hfollow.symm.trans (follow_append hfront hentries hat hlink))

end Disk

/-! ## 2. The files of a directory -/

/-- The call is given the source files of the directory to which the path leads. -/
def Call.HoldsFilesOf (disk : Disk) (directory : String) (call : Call) : Prop :=
  ∃ listed, disk.list directory = .ok listed ∧ ∀ path, path ∈ call.paths ↔
    ∃ name, Directory.IsSource disk directory listed name ∧ path = Directory.pathIn directory name

namespace Linter

/-- A directory that is not listed gives nothing. -/
theorem given_scriptOfUnit_of_list_eq_error {d : String} {cause : AccessError}
    (h : disk.list d = .error cause) : (scriptOfUnit disk (Directory.unit disk d)).given = [] := by
  rw [Directory.unit, h]
  dsimp only
  cases Directory.listingTrouble d cause with
  | fault fault => rfl
  | noUnit error => cases error <;> rfl

/-- What a directory gives is its source files. -/
theorem holdsFilesOf_of_mem_given (linter : Linter) (hroot : disk.root.WellFormed) {d : String}
    {files : Sources} (h : files ∈ (scriptOfUnit disk (Directory.unit disk d)).given) :
    (linter.reporter.callOn files).HoldsFilesOf disk d := by
  cases hlist : disk.list d with
  | error cause =>
    rw [given_scriptOfUnit_of_list_eq_error hlist] at h
    cases h
  | ok listed =>
    by_cases hsome : (Directory.eligible disk d listed).isEmpty = false
    · obtain ⟨-, batch, hgiven, -, hpaths, -⟩ := scriptOfUnit_of_not_isEmpty hlist
        (fun name hname => Disk.isName_of_list hroot hlist hname) hsome
      rw [hgiven, List.mem_singleton] at h
      subst h
      exact ⟨listed, hlist, hpaths⟩
    · rw [(scriptOfUnit_of_isEmpty hlist (by simpa using hsome)).2] at h
      cases h

/-- A directory with a source file gives something. -/
theorem given_scriptOfUnit_ne_nil (hroot : disk.root.WellFormed) {d name : String}
    {listed : Entries Node} (hlist : disk.list d = .ok listed)
    (hname : Directory.IsSource disk d listed name) :
    (scriptOfUnit disk (Directory.unit disk d)).given ≠ [] := by
  obtain ⟨-, batch, hgiven, -⟩ := scriptOfUnit_of_not_isEmpty hlist
    (fun name hname => Disk.isName_of_list hroot hlist hname)
    (Directory.isEmpty_eligible_eq_false_iff.2 ⟨name, hname⟩)
  rw [hgiven]
  exact List.cons_ne_nil _ _

/-! ## 3. What one directory target gives -/

variable {linter : Linter} {arg : String}

theorem expandDirectories_singleton (excludes : List String) (target : Target) :
    expandDirectories disk excludes [target] =
      (directoriesOf disk excludes target).map fun paths => (paths.map Path.normal).eraseDups := by
  rw [expandDirectories, List.mapM_cons, List.mapM_nil]
  cases directoriesOf disk excludes target with
  | error fault => rfl
  | ok paths =>
    show Except.ok ((paths ++ []).map Path.normal).eraseDups = _
    rw [List.append_nil]
    rfl

/-- A run over one directory gives what the directories give for which its target stands. -/
theorem given_script_directory (linter : Linter) (hroot : disk.root.WellFormed)
    (hkind : (Target.classify disk arg).kind = .directory) :
    ∃ paths, directoriesOf disk linter.excludes (Target.classify disk arg) = .ok paths ∧
      (linter.script disk [arg]).given = (paths.map Path.normal).eraseDups.flatMap fun d =>
        (scriptOfUnit disk (Directory.unit disk d)).given := by
  have hkinds : ∀ target ∈ targetsOf disk [arg], target.kind = .directory :=
    List.forall_mem_singleton.2 hkind
  have hends : (linter.scriptOfDirectories disk [Target.classify disk arg]).ending = none :=
    linter.ending_scriptOfDirectories hroot (nullFree_path_of_kind_eq_directory hkinds)
  have hgiven : (linter.script disk [arg]).given =
      (linter.scriptOfDirectories disk [Target.classify disk arg]).given := by
    rw [script_eq linter hkinds, Script.given_andThen rfl]
    rfl
  rw [hgiven]
  rw [scriptOfDirectories, expandDirectories_singleton] at hends ⊢
  cases hpaths : directoriesOf disk linter.excludes (Target.classify disk arg) with
  | error fault =>
    rw [hpaths] at hends
    cases hends
  | ok paths =>
    rw [hpaths] at hends
    refine ⟨paths, rfl, ?_⟩
    dsimp only [Except.map] at hends ⊢
    rw [Script.ending_all_eq_none_iff] at hends
    rw [Script.given_all hends, List.flatMap_map]

/-- The directories for which a target stands are reached by the normal spellings of ways down. -/
theorem exists_covers_of_directoriesOf (hroot : disk.root.WellFormed) {excludes paths : List String}
    (hkind : (Target.classify disk arg).kind = .directory)
    (h : directoriesOf disk excludes (Target.classify disk arg) = .ok paths) {d : String}
    (hd : d ∈ paths.map Path.normal) :
    ∃ names entries, (Target.classify disk arg).Covers disk excludes names entries ∧
      d = (Target.classify disk arg).pathDown names := by
  obtain ⟨path, hpath, rfl⟩ := List.mem_map.1 hd
  unfold directoriesOf at h
  split at h
  · rename_i hrecursive
    obtain ⟨branches, -, hreaches, rfl⟩ := Directory.exists_branches_of_expand hroot h
    obtain ⟨names, hnames, rfl⟩ := List.mem_map.1 hpath
    have hreach := (hreaches names).1 hnames
    obtain ⟨node, entries, hnode, hat⟩ := hreach.leads
    have hbelow : (Target.classify disk arg).recursive = false → names = [] :=
      fun hplain => absurd hrecursive (by simp [hplain])
    -- The walk has spelled the way normally already.
    exact ⟨names, entries, ⟨hbelow, hreach.kept, node, hnode, hat⟩,
      Target.normal_pathDown _ names⟩
  · obtain rfl := Except.ok.inj h
    obtain rfl := List.mem_singleton.1 hpath
    obtain ⟨entries, hnode⟩ := Target.exists_node_of_classify hkind
    exact ⟨[], entries, ⟨fun _ => rfl, List.forall_mem_nil _, _, hnode, Node.at?_nil _⟩, rfl⟩

/-- What the engine is given in a run is what the script gives, or the first part of it. -/
theorem exists_calls_run (linter : Linter) (disk : Disk) (args : List String) (journal : Journal) :
    ∃ calls, ((linter.run disk args).runOn journal).2.calls = journal.calls ++ calls ∧
      calls <+: (linter.script disk args).given.map linter.reporter.callOn ∧
      ((linter.script disk args).given ≠ [] → calls ≠ []) := by
  rw [runOn_run]
  exact ⟨_, journal.calls_extended _, Reporter.calls_traceFrom_isPrefix,
    Reporter.calls_traceFrom_ne_nil⟩

/-- For a target that is not recursive the engine is given the source files of the one directory to
which the normal spelling leads, if there are any. -/
theorem paths_of_plain (hroot : disk.root.WellFormed)
    (hkind : (Target.classify disk arg).kind = .directory)
    (hplain : (Target.classify disk arg).recursive = false) {calls : List Call}
    (hbegins : calls <+: (linter.script disk [arg]).given.map linter.reporter.callOn)
    (hne : (linter.script disk [arg]).given ≠ [] → calls ≠ []) (path : String) :
    (∃ call ∈ calls, path ∈ call.paths) ↔ ∃ listed name,
      disk.list (Path.normal arg) = .ok listed ∧
      Directory.IsSource disk (Path.normal arg) listed name ∧
      path = Directory.pathIn (Path.normal arg) name := by
  have hself : (Target.classify disk arg).path = arg := by
    rw [Target.path, if_neg (by simp [hplain]), Target.raw_classify]
  obtain ⟨paths, hpaths, hgiven⟩ := given_script_directory linter hroot hkind
  rw [directoriesOf, if_neg (by simp [hplain]), hself] at hpaths
  obtain rfl := Except.ok.inj hpaths
  have hone : (linter.script disk [arg]).given =
      (scriptOfUnit disk (Directory.unit disk (Path.normal arg))).given := by
    rw [hgiven]
    exact List.append_nil _
  rw [hone] at hbegins hne
  constructor
  · rintro ⟨call, hcall, hpath⟩
    obtain ⟨files, hfiles, rfl⟩ := List.mem_map.1 (hbegins.subset hcall)
    obtain ⟨listed, hlist, hholds⟩ := holdsFilesOf_of_mem_given linter hroot hfiles
    obtain ⟨name, hname, rfl⟩ := (hholds path).1 hpath
    exact ⟨listed, name, hlist, hname, rfl⟩
  · rintro ⟨listed, name, hlist, hname, rfl⟩
    have hsome := hne (given_scriptOfUnit_ne_nil hroot hlist hname)
    obtain ⟨call, hcall⟩ := List.exists_mem_of_ne_nil calls hsome
    obtain ⟨files, hfiles, rfl⟩ := List.mem_map.1 (hbegins.subset hcall)
    obtain ⟨listed', hlist', hholds⟩ := linter.holdsFilesOf_of_mem_given hroot hfiles
    obtain rfl := Except.ok.inj (hlist.symm.trans hlist')
    exact ⟨_, hcall, (hholds _).2 ⟨name, hname, rfl⟩⟩

/-! ## 4. Where it lies -/

/-- A run over one directory gives the engine the source files of directories to which the normal
spelling of the target, or of a way down from it, leads. For a target that is not recursive these
are all source files of the one directory. If no link is followed on the way to a parent component
of the target, the directories are those that are meant: the one to which the disk leads the target,
and those below it by the names of the way. -/
theorem run_lints_normal (linter : Linter) (hroot : disk.root.WellFormed)
    (hkind : (Target.classify disk arg).kind = .directory) (journal : Journal) :
    let target := Target.classify disk arg
    ∃ place calls, disk.resolve target.path = .ok place ∧
      ((linter.run disk [arg]).runOn journal).2.calls = journal.calls ++ calls ∧
      (target.recursive = false → ∀ path, (∃ call ∈ calls, path ∈ call.paths) ↔ ∃ listed name,
        disk.list (Path.normal arg) = .ok listed ∧
        Directory.IsSource disk (Path.normal arg) listed name ∧
        path = Directory.pathIn (Path.normal arg) name) ∧
      (∀ call ∈ calls, ∃ names entries, target.Covers disk linter.excludes names entries ∧
        call.HoldsFilesOf disk (target.pathDown names) ∧
        (disk.UnlinkedParents target.path →
          disk.resolve (target.pathDown names) = .ok (place ++ names))) ∧
      (disk.UnlinkedParents target.path → disk.resolve (Path.normal target.path) = .ok place) := by
  intro target
  obtain ⟨top, hnode⟩ := Target.exists_node_of_classify hkind
  obtain ⟨place, hresolve, hplace⟩ := Disk.node_eq_ok_iff.1 hnode
  obtain ⟨calls, hcalls, hbegins, hne⟩ := linter.exists_calls_run disk [arg] journal
  refine ⟨place, calls, hresolve, hcalls,
    fun hplain => paths_of_plain hroot hkind hplain hbegins hne, ?_, Disk.resolve_normal hresolve⟩
  intro call hcall
  -- Every call is for one of the directories for which the target stands.
  obtain ⟨paths, hpaths, hgiven⟩ := given_script_directory linter hroot hkind
  obtain ⟨files, hfiles, rfl⟩ := List.mem_map.1 (hbegins.subset hcall)
  rw [hgiven] at hfiles
  obtain ⟨d, hd, hfiles⟩ := List.mem_flatMap.1 hfiles
  obtain ⟨names, entries, hcovers, rfl⟩ :=
    exists_covers_of_directoriesOf hroot hkind hpaths (List.mem_eraseDups.1 hd)
  have hholds := linter.holdsFilesOf_of_mem_given hroot hfiles
  refine ⟨names, entries, hcovers, hholds, fun hup => ?_⟩
  -- What is given was listed, so the normal spelling leads somewhere.
  obtain ⟨listed, hlist, -⟩ := hholds
  obtain ⟨found, hfound, -⟩ := Disk.node_eq_ok_iff.1 (Disk.list_eq_ok_iff.1 hlist)
  obtain ⟨node, hsame, hbelow⟩ := hcovers.leads
  obtain rfl := Except.ok.inj (hnode.symm.trans hsame)
  have hat : disk.root.at? (place ++ names) = some (.directory entries) := by
    rw [Node.at?_append, hplace, Option.bind_some, hbelow]
  have hwhere := Disk.eq_append_of_resolve_normal_descend hresolve hup (hcovers.isName hroot) hat
    (Node.directory_ne_link _) hfound
  rw [← hwhere]
  exact hfound

/-- The link in the package leads to the directory beside it, with one link fewer to follow. -/
theorem follow_link_annexed (rest : List String) :
    Disk.follow annexed.root Disk.maxLinks ["pkg"] ("link" :: rest) =
      Disk.follow annexed.root 39 ["pkg", "sub"] rest := by
  have htext : Disk.steps "sub" = ["sub"] := by decide
  have hstart : Disk.start ["pkg"] "sub" = ["pkg"] := if_neg (by rw [Path.isAbsolute_iff]; decide)
  have hlink : Disk.stride annexed.root Disk.maxLinks ["pkg"] "link" =
      .ok ⟨39, Disk.start ["pkg"] "sub", Disk.steps "sub"⟩ := rfl
  rw [Disk.follow_cons, hlink, hstart, htext]
  exact Disk.follow_names_append (show ∀ name ∈ ["sub"], Disk.IsEntryName name by decide)
    (show annexed.root.at? ["pkg", "sub"] = some (.directory [("b.py", .file .empty)]) from rfl)
    (Node.directory_ne_link _) 39 rest

/-- A path that names the link goes on from where the link leads. -/
theorem resolve_link_annexed {path : String} {rest place : List String}
    (hpath : '\x00' ∉ path.toList ∧ path ≠ "" ∧ path.utf8ByteSize ≤ Disk.maxPathBytes)
    (hsteps : Disk.steps path = "pkg" :: "link" :: rest)
    (h : Disk.follow annexed.root 39 ["pkg", "sub"] rest = .ok place) :
    annexed.resolve path = .ok place := by
  refine Disk.resolve_of_follow (Disk.start_nil _) hpath hsteps ?_
  exact Disk.follow_cons_eq_ok_iff.2 ⟨⟨_, ["pkg"], []⟩, rfl, (follow_link_annexed rest).trans h⟩

theorem node_link_annexed : annexed.node "pkg/link" = .ok (.directory [("b.py", .file .empty)]) :=
  Disk.node_eq_ok_iff.2
    ⟨_, resolve_link_annexed (by decide) (by decide) (Disk.follow_nil _ _ _), rfl⟩

/-- The parent component takes back a directory, and only after it comes the link. -/
theorem resolve_around : annexed.resolve "pkg/sub/../link" = .ok ["pkg", "sub"] := by
  have hsteps : Disk.steps "pkg/sub/../link" = ["pkg", "sub", "..", "link"] := by decide
  refine Disk.resolve_of_follow (Disk.start_nil _) (by decide) hsteps ?_
  refine Disk.follow_cons_eq_ok_iff.2 ⟨⟨_, ["pkg"], []⟩, rfl, ?_⟩
  refine Disk.follow_cons_eq_ok_iff.2 ⟨⟨_, ["pkg", "sub"], []⟩, rfl, ?_⟩
  refine Disk.follow_cons_eq_ok_iff.2 ⟨⟨_, ["pkg"], []⟩, rfl, ?_⟩
  exact (follow_link_annexed []).trans (Disk.follow_nil _ _ _)

theorem unlinkedParents_around : annexed.UnlinkedParents "pkg/sub/../link" := by
  intro before after hnames
  have hparse : (Path.parse "pkg/sub/../link").names = ["pkg", "sub"] ++ ".." :: ["link"] := by
    decide
  rw [hparse] at hnames
  -- There is one parent component, so what comes before it are the two names.
  obtain ⟨rfl, -, -⟩ := (List.append_cons_inj_of_notMem (by decide) (by decide)).1 hnames
  have hstart : Disk.start annexed.here "pkg/sub/../link" = [] := Disk.start_nil _
  rw [hstart]
  exact ⟨_, Disk.follow_of_at? (by decide)
    (show _ = some (Node.directory [("b.py", .file .empty)]) from rfl) (Node.directory_ne_link _) 0⟩

theorem join_link : Path.join "pkg/link" "b.py" = "pkg/link/b.py" :=
  Path.join_of_endsInPiece (Path.endsInPiece_iff.2 ⟨by decide, by decide⟩)
    (mt Path.isAbsolute_iff.1 (by decide))

/-- Through the link the file of the directory is a source file. -/
theorem isSource_link_iff {name : String} :
    Directory.IsSource annexed "pkg/link" [("b.py", .file .empty)] name ↔ name = "b.py" := by
  constructor
  · exact fun h => List.mem_singleton.1 h.listed
  · rintro rfl
    have hfollow : Disk.follow annexed.root 39 ["pkg", "sub"] ["b.py"] =
        .ok ["pkg", "sub", "b.py"] :=
      Disk.follow_of_at? (by decide) (show _ = some (Node.file .empty) from rfl)
        (Node.file_ne_link _) 39
    have hnode : annexed.node "pkg/link/b.py" = .ok (.file .empty) :=
      Disk.node_eq_ok_iff.2 ⟨_, resolve_link_annexed (by decide) (by decide) hfollow, rfl⟩
    exact .of_node (by decide) (by decide) (by decide) join_link hnode

/-- An argument with a parent component before a link: the normal spelling leads through the link to
the same directory, and its file is what is given. -/
theorem lints_annexed : ∃ calls,
    annexed.UnlinkedParents "pkg/sub/../link" ∧
    annexed.resolve "pkg/sub/../link" = .ok ["pkg", "sub"] ∧
    ((quiet.run annexed ["pkg/sub/../link"]).runOn {}).2.calls = calls ∧
    (∀ path, (∃ call ∈ calls, path ∈ call.paths) ↔ path = "pkg/link/b.py") ∧
    (∀ call ∈ calls, call.HoldsFilesOf annexed "pkg/link") ∧
    annexed.resolve "pkg/link" = .ok ["pkg", "sub"] := by
  have hnode : annexed.node "pkg/sub/../link" = .ok (.directory [("b.py", .file .empty)]) :=
    Disk.node_eq_ok_iff.2 ⟨_, resolve_around, rfl⟩
  have hclassify : Target.classify annexed "pkg/sub/../link" =
      ⟨"pkg/sub/../link", .directory, false⟩ := classify_of_node_eq_directory (by decide) hnode
  have hkind : (Target.classify annexed "pkg/sub/../link").kind = .directory := by rw [hclassify]
  have hspelling : Path.normal "pkg/sub/../link" = "pkg/link" := by decide
  have hdown : Target.pathDown ⟨"pkg/sub/../link", .directory, false⟩ [] = "pkg/link" := by decide
  obtain ⟨place, calls, hresolve, hcalls, hpaths, hholds, hnormal⟩ :=
    run_lints_normal quiet (by decide) hkind {}
  rw [hclassify] at hresolve hpaths hholds hnormal
  obtain rfl := Except.ok.inj (resolve_around.symm.trans hresolve)
  have hup := unlinkedParents_around
  refine ⟨calls, hup, hresolve, hcalls, fun path => ?_, fun call hcall => ?_, ?_⟩
  · rw [hpaths rfl, hspelling]
    have hlisted : annexed.list "pkg/link" = .ok [("b.py", .file .empty)] :=
      Disk.list_eq_ok_iff.2 node_link_annexed
    constructor
    · rintro ⟨listed, name, hlist, hsource, rfl⟩
      obtain rfl := Except.ok.inj (hlisted.symm.trans hlist)
      rw [isSource_link_iff.1 hsource]
      exact join_link
    · rintro rfl
      exact ⟨_, "b.py", hlisted, isSource_link_iff.2 rfl, join_link.symm⟩
  · obtain ⟨names, entries, hcovers, hfiles, -⟩ := hholds call hcall
    obtain rfl := hcovers.below rfl
    rwa [hdown] at hfiles
  · rw [← hspelling]
    exact hnormal hup

/-! ## 5. An argument that goes astray -/

/-- A disk on which a link leads two directories down. -/
def astray : Disk where
  root := .directory
    [("a", .directory [("b", .directory [])]), ("l", .link "a/b"), ("y.py", .file .empty)]
  here := []

/-- From where the link leads the parent component goes up, and not from where the link lies. -/
theorem resolve_astray : astray.resolve "l/.." = .ok ["a"] := by
  have hsteps : Disk.steps "l/.." = ["l", ".."] := by decide
  have htext : Disk.steps "a/b" = ["a", "b"] := by decide
  -- The link is replaced by what it points to, and one link fewer may be followed after it.
  have hlink : Disk.stride astray.root Disk.maxLinks [] "l" = .ok ⟨39, [], ["a", "b"]⟩ := by
    have hstride : Disk.stride astray.root Disk.maxLinks [] "l" =
        .ok ⟨39, Disk.start [] "a/b", Disk.steps "a/b"⟩ := rfl
    rw [hstride, Disk.start_nil, htext]
  have hup : Disk.follow astray.root 39 ["a", "b"] [".."] = .ok ["a"] :=
    Disk.follow_cons_eq_ok_iff.2 ⟨⟨39, ["a"], []⟩, rfl, Disk.follow_nil _ _ _⟩
  refine Disk.resolve_of_follow (Disk.start_nil _) (by decide) hsteps ?_
  refine Disk.follow_cons_eq_ok_iff.2 ⟨_, hlink, ?_⟩
  exact (Disk.follow_names_append (show ∀ name ∈ ["a", "b"], Disk.IsEntryName name by decide)
    (show _ = some Node.emptyDirectory from rfl) (Node.directory_ne_link _) 39 [".."]).trans hup

theorem node_astray : astray.node "l/.." = .ok (.directory [("b", .directory [])]) :=
  Disk.node_eq_ok_iff.2 ⟨_, resolve_astray, rfl⟩

/-- The name of the one entry is not that of a source file. -/
theorem not_isSource_astray (name : String) :
    ¬Directory.IsSource astray "l/.." [("b", .directory [])] name := by
  intro h
  obtain rfl : name = "b" := List.mem_singleton.1 h.listed
  exact absurd h.ending (by decide)

/-- The working directory, which the normal spelling names, has a source file. -/
theorem isSource_astray : ∃ listed, astray.list "." = .ok listed ∧
    Directory.IsSource astray "." listed "y.py" := by
  have hdot : astray.node "." = .ok astray.root := by
    have hsteps : Disk.steps "." = ["."] := by decide
    have hfollow : Disk.follow astray.root Disk.maxLinks [] ["."] = .ok [] :=
      Disk.follow_cons_eq_ok_iff.2 ⟨⟨_, [], []⟩, rfl, Disk.follow_nil _ _ _⟩
    exact Disk.node_eq_ok_iff.2
      ⟨[], Disk.resolve_of_follow (Disk.start_nil _) (by decide) hsteps hfollow, rfl⟩
  have hjoin : Path.join "." "y.py" = "./y.py" :=
    Path.join_of_endsInPiece (Path.endsInPiece_iff.2 ⟨by decide, by decide⟩)
      (mt Path.isAbsolute_iff.1 (by decide))
  have hfile : astray.node "./y.py" = .ok (.file .empty) := by
    have hsteps : Disk.steps "./y.py" = [".", "y.py"] := by decide
    have hname : Disk.follow astray.root Disk.maxLinks [] ["y.py"] = .ok ["y.py"] :=
      Disk.follow_of_at? (by decide) (show _ = some (Node.file .empty) from rfl)
        (Node.file_ne_link _) _
    have hfollow : Disk.follow astray.root Disk.maxLinks [] [".", "y.py"] = .ok ["y.py"] :=
      Disk.follow_cons_eq_ok_iff.2 ⟨⟨_, [], []⟩, rfl, hname⟩
    exact Disk.node_eq_ok_iff.2
      ⟨["y.py"], Disk.resolve_of_follow (Disk.start_nil _) (by decide) hsteps hfollow, rfl⟩
  exact ⟨_, Disk.list_eq_ok_iff.2 hdot,
    .of_node (by decide) (by decide) (by decide) hjoin hfile⟩

/-- The argument is taken for the directory to which it leads, in which there is no source file, and
the engine is given the source file of the working directory. -/
theorem run_strays :
    Target.classify astray "l/.." = ⟨"l/..", .directory, false⟩ ∧
    astray.resolve "l/.." = .ok ["a"] ∧
    (∃ listed, astray.list "l/.." = .ok listed ∧
      ∀ name, ¬Directory.IsSource astray "l/.." listed name) ∧
    ∃ call ∈ ((quiet.run astray ["l/.."]).runOn {}).2.calls, "y.py" ∈ call.paths := by
  have hclassify : Target.classify astray "l/.." = ⟨"l/..", .directory, false⟩ :=
    classify_of_node_eq_directory (by decide) node_astray
  refine ⟨hclassify, resolve_astray,
    ⟨_, Disk.list_eq_ok_iff.2 node_astray, not_isSource_astray⟩, ?_⟩
  obtain ⟨calls, hcalls, hbegins, hne⟩ := quiet.exists_calls_run astray ["l/.."] {}
  obtain ⟨listed, hlist, hsource⟩ := isSource_astray
  have hspelling : Path.normal "l/.." = "." := by decide
  rw [hcalls]
  refine (paths_of_plain (by decide) (by rw [hclassify]) (by rw [hclassify]) hbegins hne _).2 ?_
  rw [hspelling]
  exact ⟨listed, "y.py", hlist, hsource, rfl⟩

end Linter

end LintFront
