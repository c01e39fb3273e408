import LintFront.Proofs.Directory.Files
import LintFront.Proofs.FileTree.Access
import LintFront.Proofs.FileTree.Dots
import Mathlib
/-!
# The three sorts of files of a directory

Which sort a file is of is decided by tests on its name that are made one after the other, and the
tests overlap: a name can look like a test and like a stub. Here the sorts are described apart from
each other, and the files of a directory fall into them with none left over and none in two.

What a directory holds does not hang on how its path is spelled, but a file in it is looked up by a
path, and the system may refuse that path: it can be too long, or lead through too many links when
those in the path of the directory are counted in. A refused file is passed over as if it were not
there. So a file of the directory *belongs* to it when it is a source file and its path is not
refused.

## Main statements

`Directory.isSource_iff`: which files are found. `Directory.unit_partitions`: how the files of a
directory fall into sorts. `Directory.unit_dotted`: a source file that is passed over.
-/

namespace LintFront

/-! ## 1. The sorts of names -/

/-- Does a file of this name hold tests? It is a source file, and its name is one of those that are
agreed upon. -/
def IsTestName (name : String) : Prop :=
  Text.hasEnding name ".py" = true ∧
    (name = "conftest.py" ∨ name.startsWith "test_" = true ∨ Text.hasEnding name "_test.py" = true)

theorem isTestFile_iff {name : String} : isTestFile name = true ↔ IsTestName name := by
  rw [isTestFile, IsTestName, Bool.or_eq_true, decide_eq_true_eq, Bool.and_eq_true, Bool.or_eq_true]
  constructor
  · rintro (rfl | ⟨hending, h⟩)
    · exact ⟨by decide, .inl rfl⟩
    · exact ⟨hending, .inr h⟩
  · rintro ⟨hending, h⟩
    exact h.imp id fun h => ⟨hending, h⟩

/-- A name has one ending only of the two that make a source file. -/
theorem not_hasEnding_stub {name : String} (h : Text.hasEnding name ".py" = true) :
    ¬Text.hasEnding name ".pyi" = true := by
  intro hstub
  obtain ⟨stem, rfl⟩ := Text.hasEnding_iff.1 h
  obtain ⟨stem', heq⟩ := Text.hasEnding_iff.1 hstub
  have hlast := congrArg (fun text : String => text.toList.getLast?) heq
  simp at hlast

theorem role?_eq_stub_iff {name : String} :
    role? name = some .stub ↔ Text.hasEnding name ".pyi" = true := by
  fun_cases role? name <;> simp_all

theorem role?_eq_test_iff {name : String} : role? name = some .test ↔ IsTestName name := by
  rw [← isTestFile_iff]
  have hstub : isTestFile name = true → ¬Text.hasEnding name ".pyi" = true :=
    fun h => not_hasEnding_stub (isTestFile_iff.1 h).1
  fun_cases role? name <;> simp_all

theorem role?_eq_source_iff {name : String} :
    role? name = some .source ↔ Text.hasEnding name ".py" = true ∧ ¬IsTestName name := by
  rw [← isTestFile_iff]
  have hstub : Text.hasEnding name ".py" = true → ¬Text.hasEnding name ".pyi" = true :=
    not_hasEnding_stub
  fun_cases role? name <;> simp_all

namespace Directory

variable {disk : Disk} {d name : String} {entries : Entries Node}

/-! ## 2. What a directory holds -/

/-- What the directory holds under the name is a regular file, or a link that leads to one, and this
lies at `place`. -/
def LeadsToFile (disk : Disk) (d name : String) (place : List String) : Prop :=
  ∃ home content, disk.resolve d = .ok home ∧
    Disk.follow disk.root Disk.maxLinks home [name] = .ok place ∧
    disk.root.at? place = some (.file content)

/-- The system refuses the path of the name in the directory: it is too long, or leads through too
many links. -/
def IsRefused (disk : Disk) (d name : String) : Prop :=
  disk.node (Path.join d name) = .error .nameTooLong ∨
    disk.node (Path.join d name) = .error .linkLoop

/-- A source file belongs to the directory with these entries: it is not hidden, has one of the
endings, is a regular file or a link that leads to one, and its path is not refused. -/
structure Belongs (disk : Disk) (d : String) (entries : Entries Node) (name : String) : Prop where
  listed : name ∈ entries.names
  shown : name.startsWith "." = false
  ending : Text.hasEnding name ".py" = true ∨ Text.hasEnding name ".pyi" = true
  leads : ∃ place, LeadsToFile disk d name place
  accepted : ¬IsRefused disk d name

theorem steps_join_of_ne (hne : d ≠ "") (hname : Path.IsComponent name) :
    Disk.steps (Path.join d name) = (Path.pieces d).filter (· ≠ "") ++ [name] := by
  by_cases hend : Text.hasEnding d "/" = true
  · obtain ⟨stem, rfl⟩ := Text.hasEnding_iff.1 hend
    have hjoin : Path.join (stem ++ "/") name = stem ++ "/" ++ name := by
      rw [Path.join, if_neg hname.not_isAbsolute, if_pos (.inr hend)]
    have hpiece : name ≠ "" := fun heq => hname.ne_nil (by rw [heq]; rfl)
    rw [Disk.steps_of_endsInPiece (hname.endsInPiece.join _), hjoin, Path.pieces_append,
      Path.pieces_append_slash, Path.pieces_of_notMem hname.2]
    simp [hpiece]
  · have hpiece : Path.EndsInPiece d := Path.endsInPiece_iff.2 ⟨hne, hend⟩
    rw [Disk.steps_join hpiece hname, Disk.steps_of_endsInPiece hpiece]

/-- The path of a name in a directory goes on from where the directory lies, with the links that are
left by then. -/
theorem exists_follow_join {home : List String} (hresolve : disk.resolve d = .ok home)
    (hname : Path.IsComponent name) :
    ∃ links, links ≤ Disk.maxLinks ∧
      Disk.follow disk.root Disk.maxLinks (Disk.start disk.here (Path.join d name))
          (Disk.steps (Path.join d name)) = Disk.follow disk.root links home [name] := by
  obtain ⟨-, hne, -, hfollow⟩ := Disk.resolve_eq_ok_iff.1 hresolve
  obtain ⟨links, hle, hgo⟩ := Disk.exists_links_of_follow hfollow
  -- A slash at the end of the directory asks for a directory, and a name after it asks no more.
  have hthin : Disk.Thinned (Disk.steps d) ((Path.pieces d).filter (· ≠ "")) := by
    have hlast : Disk.Thinned (if Text.hasEnding d "/" then ["."] else []) [] := by
      split
      · exact .drop .nil
      · exact .nil
    have hall := (Disk.Thinned.refl ((Path.pieces d).filter (· ≠ ""))).append hlast
    rwa [List.append_nil] at hall
  refine ⟨links, hle, ?_⟩
  rw [steps_join_of_ne hne hname, Disk.start_join disk.here hname,
    ← Disk.follow_append_of_thinned hthin hfollow, hgo]

/-- A path that leads to a file is not refused. -/
theorem not_isRefused_of_node {content : ByteArray}
    (h : disk.node (Path.join d name) = .ok (.file content)) : ¬IsRefused disk d name := by
  rintro (hlong | hloop)
  · rw [h] at hlong
    cases hlong
  · rw [h] at hloop
    cases hloop

/-- A path that is not refused is short enough to be followed. -/
theorem resolve_join_eq_follow {home : List String} (hresolve : disk.resolve d = .ok home)
    (hname : Node.IsName name) (haccepted : ¬IsRefused disk d name) :
    disk.resolve (Path.join d name) =
      Disk.follow disk.root Disk.maxLinks (Disk.start disk.here (Path.join d name))
        (Disk.steps (Path.join d name)) := by
  have hnull : Path.NullFree (Path.join d name) :=
    Path.NullFree.join (Disk.resolve_eq_ok_iff.1 hresolve).1 (Path.nullFree_of_isName hname)
  have hempty : Path.join d name ≠ "" :=
    (Path.endsInPiece_iff.1 ((Path.isComponent_of_isName hname).endsInPiece.join d)).1
  refine Disk.resolve_eq_follow hnull hempty ?_
  by_contra hsize
  refine haccepted (.inl ?_)
  rw [Disk.node, Disk.resolve, if_neg hnull, if_neg hempty, if_pos (Nat.lt_of_not_le hsize)]

/-- What the path of a name in a directory leads to is what the directory holds under the name,
unless the path is refused. -/
theorem resolve_join_iff {place : List String} {content : ByteArray} (hname : Node.IsName name)
    (hcontent : disk.root.at? place = some (.file content))
    (hlisted : ∃ entries, disk.list d = .ok entries) :
    disk.resolve (Path.join d name) = .ok place ↔
      LeadsToFile disk d name place ∧ ¬IsRefused disk d name := by
  obtain ⟨entries, hlist⟩ := hlisted
  obtain ⟨home, hresolve, -⟩ := Disk.node_eq_ok_iff.1 (Disk.list_eq_ok_iff.1 hlist)
  obtain ⟨links, hle, hgo⟩ := exists_follow_join hresolve (Path.isComponent_of_isName hname)
  -- With the links that are left the name leads where it leads with all of them, or there are not
  -- enough of them.
  have hfewer := Disk.follow_of_fewer_links disk.root hle home [name]
  constructor
  · intro h
    obtain ⟨-, -, -, hfollow⟩ := Disk.resolve_eq_ok_iff.1 h
    rw [hgo] at hfollow
    refine ⟨⟨home, content, hresolve, ?_, hcontent⟩,
      not_isRefused_of_node (Disk.node_eq_ok_iff.2 ⟨place, h, hcontent⟩)⟩
    rcases hfewer with hloop | hsame
    · rw [hloop] at hfollow
      cases hfollow
    · rw [← hsame, hfollow]
  · rintro ⟨⟨home', content', hresolve', hfollow, hcontent'⟩, haccepted⟩
    obtain rfl := Except.ok.inj (hresolve.symm.trans hresolve')
    have hjoin := resolve_join_eq_follow hresolve hname haccepted
    rw [hgo] at hjoin
    rcases hfewer with hloop | hsame
    · refine absurd (.inr ?_) haccepted
      rw [Disk.node, hjoin, hloop]
    · rw [hjoin, hsame, hfollow]

/-- The files that are found in a directory are those that belong to it. -/
theorem isSource_iff (hroot : disk.root.WellFormed) (hlist : disk.list d = .ok entries) :
    IsSource disk d entries name ↔ Belongs disk d entries name := by
  constructor
  · intro h
    have hname := Disk.isName_of_list hroot hlist h.listed
    obtain ⟨content, hnode⟩ := Disk.isFile_iff.1 h.isFile
    obtain ⟨place, hresolve, hcontent⟩ := Disk.node_eq_ok_iff.1 hnode
    obtain ⟨hleads, haccepted⟩ := (resolve_join_iff hname hcontent ⟨entries, hlist⟩).1 hresolve
    exact ⟨h.listed, h.shown, h.ending, ⟨place, hleads⟩, haccepted⟩
  · intro h
    have hname := Disk.isName_of_list hroot hlist h.listed
    obtain ⟨place, hleads⟩ := h.leads
    obtain ⟨-, content, -, -, hcontent⟩ := id hleads
    have hresolve := (resolve_join_iff hname hcontent ⟨entries, hlist⟩).2 ⟨hleads, h.accepted⟩
    exact ⟨h.listed, h.shown, h.ending,
      Disk.isFile_iff.2 ⟨content, Disk.node_eq_ok_iff.2 ⟨place, hresolve, hcontent⟩⟩⟩

/-! ## 3. How the files fall into sorts -/

/-- The source files of a directory come in ascending order, each once. -/
theorem pairwise_eligible (hdistinct : entries.names.Nodup) :
    (eligible disk d entries).Pairwise (· < ·) := by
  refine pairwise_lt_mergeSort id ?_
  rw [List.map_id]
  exact hdistinct.filter _

theorem pathIn_inj_name {name' : String} (hname : Path.IsComponent name)
    (hname' : Path.IsComponent name') (h : pathIn d name = pathIn d name') : name = name' := by
  have hparse := congrArg Path.parse h
  rw [parse_pathIn d hname, parse_pathIn d hname', Path.parse_join d hname,
    Path.parse_join d hname'] at hparse
  simpa using hparse

/-- The path under which a file belongs to a unit leads where the path of its name does. -/
theorem resolve_pathIn {place : List String} (hname : Path.IsComponent name)
    (h : disk.resolve (Path.join d name) = .ok place) :
    disk.resolve (pathIn d name) = .ok place := by
  by_cases hdot : d = "."
  · have htidy : Path.tidy (Path.join d name) = pathIn d name := by
      rw [Path.tidy, ← parse_pathIn d hname, pathIn, if_pos hdot, Path.parse_of_isComponent hname,
        Path.text_of_names (List.cons_ne_nil _ _), String.intercalate_singleton]
      exact String.empty_append
    exact htidy ▸ Disk.resolve_tidy h
  · rwa [pathIn, if_neg hdot]

/-- The files of one sort that belong to a directory. -/
def filesOf (disk : Disk) (d : String) (entries : Entries Node) (role : Role) : List String :=
  (eligible disk d entries).filter fun name => role? name = some role

/-- A unit that is made of all files of the directory with these entries, each in its sort. -/
structure IsPartition (disk : Disk) (d : String) (entries : Entries Node) (unit : SourceUnit) :
    Prop where
  ascending : ∀ names ∈ [unit.sources, unit.stubs, unit.tests], names.Pairwise (· < ·)
  apart : [unit.sources, unit.stubs, unit.tests].Pairwise List.Disjoint
  together : ∀ name, name ∈ unit.sources ++ unit.stubs ++ unit.tests ↔ Belongs disk d entries name
  sources : ∀ name, name ∈ unit.sources ↔
    Belongs disk d entries name ∧ Text.hasEnding name ".py" = true ∧ ¬IsTestName name
  stubs : ∀ name, name ∈ unit.stubs ↔
    Belongs disk d entries name ∧ Text.hasEnding name ".pyi" = true
  tests : ∀ name, name ∈ unit.tests ↔ Belongs disk d entries name ∧ IsTestName name
  files : unit.files = (unit.sources ++ unit.stubs ++ unit.tests).map (pathIn d)
  distinct : unit.files.Nodup
  count : unit.files.length = {name | Belongs disk d entries name}.ncard
  /-- Each path of the unit leads to the file that it is named for. -/
  leads : ∀ name place, Belongs disk d entries name → LeadsToFile disk d name place →
    disk.resolve (pathIn d name) = .ok place

section

variable (hroot : disk.root.WellFormed) (hlist : disk.list d = .ok entries)

include hroot hlist

theorem mem_eligible_iff : name ∈ eligible disk d entries ↔ Belongs disk d entries name :=
  mem_eligible.trans (isSource_iff hroot hlist)

theorem mem_filesOf {role : Role} :
    name ∈ filesOf disk d entries role ↔ Belongs disk d entries name ∧ role? name = some role := by
  rw [filesOf, List.mem_filter, mem_eligible_iff hroot hlist, decide_eq_true_eq]

theorem disjoint_filesOf {role role' : Role} (hne : role ≠ role') :
    (filesOf disk d entries role).Disjoint (filesOf disk d entries role') := by
  intro name hname hname'
  have hrole := ((mem_filesOf hroot hlist).1 hname).2
  have hrole' := ((mem_filesOf hroot hlist).1 hname').2
  exact hne (Option.some.inj (hrole.symm.trans hrole'))

theorem pairwise_filesOf (role : Role) : (filesOf disk d entries role).Pairwise (· < ·) := by
  have hdistinct : entries.names.Nodup := by
    obtain ⟨place, -, hplace⟩ := Disk.node_eq_ok_iff.1 (Disk.list_eq_ok_iff.1 hlist)
    cases hroot.of_at? hplace with
    | directory distinct named below => exact distinct
  exact (pairwise_eligible hdistinct).filter _

theorem pairwise_disjoint_filesOf :
    [filesOf disk d entries .source, filesOf disk d entries .stub,
      filesOf disk d entries .test].Pairwise List.Disjoint := by
  have hroles : [Role.source, .stub, .test].Pairwise (· ≠ ·) := by decide
  exact hroles.map (filesOf disk d entries) fun _ _ => disjoint_filesOf hroot hlist

/-- No file is of two sorts, and none comes twice in one. -/
theorem nodup_filesOf :
    (filesOf disk d entries .source ++ filesOf disk d entries .stub ++
      filesOf disk d entries .test).Nodup := by
  have hall : ([filesOf disk d entries .source, filesOf disk d entries .stub,
      filesOf disk d entries .test].flatten).Nodup := by
    refine List.nodup_flatten.2 ⟨?_, pairwise_disjoint_filesOf hroot hlist⟩
    have hone := fun role => (pairwise_filesOf hroot hlist role).imp (ne_of_lt (α := String))
    simpa using ⟨hone .source, hone .stub, hone .test⟩
  simpa using hall

/-- The files that belong to a directory are of the three sorts. -/
theorem mem_sorts_iff :
    name ∈ filesOf disk d entries .source ++ filesOf disk d entries .stub ++
      filesOf disk d entries .test ↔ Belongs disk d entries name := by
  have hrole : ∀ name ∈ eligible disk d entries, (role? name).isSome = true :=
    fun name hname => role?_isSome_iff.2 (mem_eligible.1 hname).ending
  have hnames : name ∈ (SourceUnit.ofNames d d (eligible disk d entries)).names ↔
      name ∈ eligible disk d entries := mem_names_ofNames hrole
  rw [← mem_eligible_iff hroot hlist, ← hnames, SourceUnit.names, List.mem_eraseDups]
  rfl

/-- No file comes twice in a unit, so none is dropped where the sorts are put together. -/
theorem files_ofNames (label : String) :
    (SourceUnit.ofNames d label (eligible disk d entries)).files =
      (filesOf disk d entries .source ++ filesOf disk d entries .stub ++
        filesOf disk d entries .test).map (pathIn d) := by
  rw [files_eq, SourceUnit.names]
  exact congrArg (List.map _) (eraseDups_of_nodup (nodup_filesOf hroot hlist))

/-- The files that belong to a directory are as many as there are in the three sorts. -/
theorem ncard_belongs :
    {name | Belongs disk d entries name}.ncard =
      (filesOf disk d entries .source ++ filesOf disk d entries .stub ++
        filesOf disk d entries .test).length := by
  have hset : {name | Belongs disk d entries name} =
      ((filesOf disk d entries .source ++ filesOf disk d entries .stub ++
        filesOf disk d entries .test).toFinset : Set String) := by
    ext name
    rw [List.coe_toFinset]
    exact (mem_sorts_iff hroot hlist).symm
  rw [hset, Set.ncard_coe_finset, List.toFinset_card_of_nodup (nodup_filesOf hroot hlist)]

/-- The files that belong to a directory are made into a unit in which each of them is in the sort
that its name says. -/
theorem isPartition_ofNames (label : String) :
    IsPartition disk d entries (.ofNames d label (eligible disk d entries)) := by
  have hfiles := files_ofNames hroot hlist label
  have hcomponent : ∀ name, Belongs disk d entries name → Path.IsComponent name :=
    fun name h => Path.isComponent_of_isName (Disk.isName_of_list hroot hlist h.listed)
  refine ⟨?ascending, pairwise_disjoint_filesOf hroot hlist, fun name => mem_sorts_iff hroot hlist,
    fun name => ?sources, fun name => ?stubs, fun name => ?tests, hfiles, ?distinct, ?count, ?leads⟩
  case ascending =>
    have hsort := pairwise_filesOf hroot hlist
    simp only [List.forall_mem_cons]
    exact ⟨hsort .source, hsort .stub, hsort .test, List.forall_mem_nil _⟩
  case sources => rw [← role?_eq_source_iff]; exact mem_filesOf hroot hlist
  case stubs => rw [← role?_eq_stub_iff]; exact mem_filesOf hroot hlist
  case tests => rw [← role?_eq_test_iff]; exact mem_filesOf hroot hlist
  case distinct =>
    rw [hfiles]
    refine (nodup_filesOf hroot hlist).map_on fun name hname name' hname' heq => ?_
    exact pathIn_inj_name (hcomponent name ((mem_sorts_iff hroot hlist).1 hname))
      (hcomponent name' ((mem_sorts_iff hroot hlist).1 hname')) heq
  case count => rw [hfiles, List.length_map, ncard_belongs hroot hlist]
  case leads =>
    intro name place hbelongs hleads
    obtain ⟨-, content, -, -, hcontent⟩ := id hleads
    have hname := Disk.isName_of_list hroot hlist hbelongs.listed
    exact resolve_pathIn (hcomponent name hbelongs)
      ((resolve_join_iff hname hcontent ⟨entries, hlist⟩).2 ⟨hleads, hbelongs.accepted⟩)

end

/-- The source files of a directory are parted by their names: it forms a unit when a file belongs
to it, and in the unit each of these files is in its one sort. A directory to which none belongs has
no source files, and a directory that cannot be listed is reported for another reason. -/
theorem unit_partitions (hroot : disk.root.WellFormed) (d : String) :
    (∀ entries, disk.list d = .ok entries →
      (unit disk d = .error (.noUnit (.noSources d)) ↔ ∀ name, ¬Belongs disk d entries name) ∧
      ((∃ name, Belongs disk d entries name) →
        ∃ made, unit disk d = .ok made ∧ IsPartition disk d entries made)) ∧
    ∀ cause, disk.list d = .error cause → cause ≠ .embeddedNull →
      ∃ error, unit disk d = .error (.noUnit error) ∧ ∀ place, error ≠ .noSources place := by
  refine ⟨fun entries hlist => ?_, fun cause hlist hnull => ?_⟩
  · have hbelongs : (eligible disk d entries).isEmpty = false ↔
        ∃ name, Belongs disk d entries name :=
      isEmpty_eligible_eq_false_iff.trans
        (exists_congr fun name => isSource_iff hroot hlist)
    have hmade : (eligible disk d entries).isEmpty = false →
        ∃ made, unit disk d = .ok made ∧ IsPartition disk d entries made :=
      fun hsome => ⟨_, unit_of_not_isEmpty hlist hsome, isPartition_ofNames hroot hlist _⟩
    refine ⟨⟨fun hnone name h => ?_, fun h => ?_⟩, fun h => hmade (hbelongs.2 h)⟩
    · obtain ⟨made, hunit, -⟩ := hmade (hbelongs.2 ⟨name, h⟩)
      rw [hunit] at hnone
      cases hnone
    · refine unit_of_isEmpty hlist ?_
      by_contra hsome
      obtain ⟨name, hname⟩ := hbelongs.1 (Bool.eq_false_iff.2 hsome)
      exact h name hname
  · rw [unit, hlist]
    cases cause with
    | embeddedNull => exact absurd rfl hnull
    | missing | notDirectory | isDirectory | nameTooLong | linkLoop =>
      refine ⟨_, rfl, fun place hnone => ?_⟩
      cases hnone

/-- A directory with names of every sort: a test and a stub that looks like one, a link to a file
and one to nothing, a hidden file and a directory that is named like a file. -/
def mixed : Disk where
  root := .directory [("p", .directory [("test_m.py", .file .empty), ("m.py", .file .empty),
    ("test_m.pyi", .file .empty), ("l.py", .link "m.py"), ("n.py", .link "gone"),
    (".h.py", .file .empty), ("sub.py", .emptyDirectory), ("conftest.py", .file .empty)])]
  here := []

/-- The files of a directory with names of every sort are parted, and a path to nothing is reported
as such. -/
theorem partitions_mixed : mixed.root.WellFormed ∧
    (∃ entries, mixed.list "p" = .ok entries ∧ Belongs mixed "p" entries "m.py" ∧
      ∃ made, unit mixed "p" = .ok made ∧ IsPartition mixed "p" entries made) ∧
    mixed.list "q" = .error .missing ∧
    ∃ error, unit mixed "q" = .error (.noUnit error) ∧ ∀ place, error ≠ .noSources place := by
  have hroot : mixed.root.WellFormed := by decide
  have hnode : mixed.node "p" = .ok (.directory _) :=
    Disk.node_of_spellsOut rfl (show Disk.SpellsOut _ ["p"] by decide) rfl
      (Node.directory_ne_link _)
  have hlist := Disk.list_eq_ok_iff.2 hnode
  have hpath : Path.join "p" "m.py" = "p/m.py" :=
    Path.join_of_endsInPiece (Path.endsInPiece_iff.2 ⟨by decide, by decide⟩)
      (mt Path.isAbsolute_iff.1 (by decide))
  have hfile : mixed.node "p/m.py" = .ok (.file .empty) :=
    Disk.node_of_spellsOut rfl (show Disk.SpellsOut _ ["p", "m.py"] by decide) rfl
      (Node.file_ne_link _)
  have hbelongs : Belongs mixed "p" _ "m.py" :=
    (isSource_iff hroot hlist).1 (.of_node (List.mem_cons_of_mem _ List.mem_cons_self) (by decide)
      (by decide) hpath hfile)
  have hmissing : mixed.list "q" = .error .missing := by cbv
  exact ⟨hroot, ⟨_, hlist, hbelongs, ((unit_partitions hroot "p").1 _ hlist).2 ⟨_, hbelongs⟩⟩,
    hmissing, (unit_partitions hroot "q").2 _ hmissing (by decide)⟩

/-! ## 4. A file that is passed over -/

/-- A directory with one source file. -/
def lonely : Disk where
  root := .directory [("p", .directory [("x.py", .file .empty)])]
  here := []

/-- A directory whose path is just short enough can be listed, but the paths of its files are too
long: a source file is there, and there are no source files. -/
theorem unit_dotted :
    lonely.list (Path.dotted "p" 2047) = .ok [("x.py", .file .empty)] ∧
      "x.py".startsWith "." = false ∧ Text.hasEnding "x.py" ".py" = true ∧
      LeadsToFile lonely (Path.dotted "p" 2047) "x.py" ["p", "x.py"] ∧
      unit lonely (Path.dotted "p" 2047) =
        .error (.noUnit (.noSources (Path.dotted "p" 2047))) := by
  have hends : Path.EndsInPiece "p" := Path.endsInPiece_iff.2 ⟨by decide, by decide⟩
  have hplace : lonely.root.at? ["p"] = some (.directory [("x.py", .file .empty)]) := rfl
  have hhome : lonely.resolve (Path.dotted "p" 2047) = .ok ["p"] :=
    Disk.resolve_dotted hends (Disk.resolve_of_spellsOut rfl
      (show Disk.SpellsOut _ ["p"] by decide) hplace (Node.directory_ne_link _)) hplace (by decide)
  have hlist := Disk.list_eq_ok_iff.2 (Disk.node_eq_ok_iff.2 ⟨_, hhome, hplace⟩)
  have hname : ∀ name ∈ ["x.py"], Disk.IsEntryName name := by decide
  have hleads : LeadsToFile lonely (Path.dotted "p" 2047) "x.py" ["p", "x.py"] :=
    ⟨["p"], .empty, hhome, Disk.follow_of_at? hname rfl (Node.file_ne_link _) _, rfl⟩
  have hshown : "x.py".startsWith "." = false := by
    rw [String.startsWith_string_eq_false_iff]
    decide
  have hrelative : ¬Path.isAbsolute "x.py" = true := by
    rw [Path.isAbsolute_iff]
    decide
  have hsize : Disk.maxPathBytes < (Path.join (Path.dotted "p" 2047) "x.py").utf8ByteSize := by
    rw [Path.join_of_endsInPiece (Path.endsInPiece_dotted hends _) hrelative,
      String.utf8ByteSize_append, String.utf8ByteSize_append, Path.size_dotted]
    decide
  have hpassed : eligible lonely (Path.dotted "p" 2047) [("x.py", .file .empty)] = [] := by
    refine List.eq_nil_iff_forall_not_mem.2 fun name hname => ?_
    obtain ⟨hlisted, -, -, hfile⟩ := mem_eligible.1 hname
    obtain rfl : name = "x.py" := List.mem_singleton.1 hlisted
    obtain ⟨content, hcontent⟩ := Disk.isFile_iff.1 hfile
    exact Disk.node_of_long hsize _ hcontent
  exact ⟨hlist, hshown, by decide, hleads, unit_of_isEmpty hlist (by rw [hpassed]; rfl)⟩

end Directory

end LintFront
