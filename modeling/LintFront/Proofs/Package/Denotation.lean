import LintFront.Proofs.Directory.Partition
import LintFront.Proofs.Package.Below
/-!
# What a path that is shown denotes

Whether a path is shown relative to the working directory is settled by its first characters: they
have to be those of the working directory and a slash. The slash is what makes this a question of
components, so that a directory whose name only begins like the working directory is told apart from
it. A path that is shown is then a spelling of the path that it stands for, and no two paths are
shown alike.

The units of packages are formed in directories as they are shown, and their files are opened by
paths that go on from there. These lead to what was found, since the disk goes on alike from a place
and from the place as it is shown. A module is shown as a file, and its path is split and put
together again before it is opened. What is found in an archive is not to be opened at all, so a
search that comes to one is left out, and a disk shows what would become of its units.

## Main statements

`Disk.abbreviates_display`: what a path as it is shown tells of the path.
`Package.Found.IsThere.openExactly_of_unit`: a unit opens the files that were found.
`Package.shown_denotes`: both, for a working directory that is there and a search that leads into no
archive. `Package.archive_not_denoted`: a unit from an archive opens nothing.
-/

namespace LintFront

/-! ## 1. Normal absolute paths -/

namespace Path

/-- A normal absolute spelling with a single slash before it. -/
structure IsNormalAbsolute (path : String) : Prop where
  normal : Path.normal path = path
  anchor : (parse path).anchor = 1

namespace IsNormalAbsolute

variable {path : String}

theorem tidy (h : IsNormalAbsolute path) : Path.tidy path = path := by
  have htidy := tidy_normal path
  rwa [h.normal] at htidy

theorem isAbsolute (h : IsNormalAbsolute path) : Path.isAbsolute path = true := by
  rw [isAbsolute_iff_anchor, h.anchor]
  exact Nat.one_ne_zero

theorem noParents (h : IsNormalAbsolute path) : ".." ∉ (parse path).names := by
  have hparse := parse_normal path
  rw [h.normal] at hparse
  rw [hparse]
  exact notMem_collapse (by rw [h.anchor]; exact Nat.one_ne_zero)

theorem eq_text (h : IsNormalAbsolute path) : path = text ⟨1, (parse path).names⟩ := by
  rw [← h.anchor]
  exact h.tidy.symm

theorem isLocation (h : IsNormalAbsolute path) (hne : (parse path).names ≠ []) :
    IsLocation path where
  absolute := h.isAbsolute
  noParents := h.noParents
  nonempty := hne
  endsInPiece := by
    rw [← h.tidy]
    exact endsInPiece_text (wellSpelled_parse path).components hne

end IsNormalAbsolute

end Path

/-! ## 2. What a path as it is shown tells -/

namespace Disk

variable {disk : Disk} {path : String}

/-- Does `shown` abbreviate `path`? It has no parent components, and seen from the working directory
it is the path. It is the dot for the working directory alone, and in a working directory below the
root it is relative for what lies there by its components and for nothing else. -/
structure Abbreviates (disk : Disk) (shown path : String) : Prop where
  noParents : ".." ∉ (Path.parse shown).names
  absolute : Path.absolute disk.cwd shown = path
  eq_dot_iff : shown = "." ↔ path = disk.cwd
  relative_iff : disk.cwd ≠ "/" →
    (¬Path.isAbsolute shown = true ↔ disk.here <+: (Path.parse path).names)

/-- What has the components of a working directory below the root before its own lies in it. -/
theorem isWithin_of_prefix (hanchor : (Path.parse path).anchor = 1) (hne : disk.here ≠ [])
    (h : disk.here <+: (Path.parse path).names) : disk.IsWithin path := by
  obtain ⟨rel, hrel⟩ := h
  have htidy : Path.tidy path = Path.text ⟨1, disk.here ++ rel⟩ := by
    rw [Path.tidy, hrel, ← hanchor]
  rw [IsWithin, htidy]
  by_cases hnil : rel = []
  · left
    rw [hnil, List.append_nil]
    rfl
  · right
    rw [Path.text_of_names (List.append_ne_nil_of_left_ne_nil hne rel),
      String.intercalate_append_of_ne_nil hne hnil, cwd, Path.text_of_names hne]
    simp only [String.startsWith_string_iff, String.toList_append]
    rw [← List.append_assoc, ← List.append_assoc]
    exact List.prefix_append _ _

section

variable (hhere : ∀ name ∈ disk.here, Node.IsName name)

include hhere

theorem isNormalAbsolute_cwd : Path.IsNormalAbsolute disk.cwd where
  normal := by
    rw [Path.normal_of_notMem (noParents_cwd hhere), Path.tidy, parse_cwd hhere]
    rfl
  anchor := by rw [parse_cwd hhere]

theorem cwd_eq_slash_iff : disk.cwd = "/" ↔ disk.here = [] := by
  constructor
  · intro hslash
    have hparse := parse_cwd hhere
    rw [hslash] at hparse
    exact (congrArg Path.names hparse).symm
  · intro hnil
    rw [cwd, hnil]
    rfl

/-- The working directory is shown as the dot. -/
theorem display_cwd : disk.display disk.cwd = "." := by
  have hcwd := isNormalAbsolute_cwd hhere
  rw [display, Path.absolute_of_isAbsolute hcwd.isAbsolute hcwd.noParents, hcwd.tidy, if_pos rfl]

theorem abbreviates_dot : disk.Abbreviates "." disk.cwd where
  noParents := by decide
  absolute := absolute_dot hhere
  eq_dot_iff := iff_of_true rfl rfl
  relative_iff _ := by
    refine iff_of_true (by rw [Path.isAbsolute_iff]; decide) ?_
    rw [parse_cwd hhere]

/-- A path that does not lie in the working directory stands for itself. -/
theorem abbreviates_self (hpath : Path.IsNormalAbsolute path) (hout : ¬disk.IsWithin path) :
    disk.Abbreviates path path where
  noParents := hpath.noParents
  absolute := by rw [Path.absolute_of_isAbsolute hpath.isAbsolute hpath.noParents, hpath.tidy]
  eq_dot_iff := by
    refine iff_of_false ?_ fun hcwd => hout (.inl (hpath.tidy.trans hcwd))
    rintro rfl
    exact absurd hpath.anchor (by decide)
  relative_iff hne := by
    refine iff_of_false (not_not.2 hpath.isAbsolute) fun hprefix => hout ?_
    exact isWithin_of_prefix hpath.anchor (mt (cwd_eq_slash_iff hhere).2 hne) hprefix

/-- A path that lies in the working directory is shown by its components after those of the working
directory. -/
theorem abbreviates_of_isWithin (hpath : Path.IsNormalAbsolute path) (hne : path ≠ disk.cwd)
    (hwithin : disk.IsWithin path) : disk.Abbreviates (disk.display path) path := by
  obtain ⟨rel, hrel⟩ := hwithin.exists_names hhere
  -- Only the root has no components, and it lies in no working directory but itself.
  have hlocation : Path.IsLocation path := by
    refine hpath.isLocation fun hnil => hne ?_
    rw [hrel] at hnil
    rw [hpath.eq_text, hrel, hnil, (cwd_eq_slash_iff hhere).2 (List.append_eq_nil_iff.1 hnil).1]
    rfl
  have hself : Path.absolute disk.cwd (disk.display path) = path := by
    rw [← Path.tidy_absolute, Path.tidy, parse_absolute_display hhere hlocation, hpath.anchor,
      ite_self]
    exact hpath.eq_text.symm
  refine ⟨noParents_display hhere hlocation, hself, iff_of_false (fun hdot => hne ?_) hne,
    fun _ => iff_of_true ?_ ⟨rel, hrel.symm⟩⟩
  · rw [← hself, hdot, absolute_dot hhere]
  · rw [Path.isAbsolute_iff_anchor, parse_display_of_isWithin hhere hlocation hwithin hrel]
    exact not_not.2 rfl

/-- A path as it is shown stands for the path. -/
theorem abbreviates_display (hpath : Path.IsNormalAbsolute path) :
    disk.Abbreviates (disk.display path) path := by
  by_cases hwithin : disk.IsWithin path
  · by_cases hcwd : path = disk.cwd
    · rw [hcwd, display_cwd hhere]
      exact abbreviates_dot hhere
    · exact abbreviates_of_isWithin hhere hpath hcwd hwithin
  · obtain ⟨hcwd, hstart⟩ := not_or.1 hwithin
    have hself : disk.display path = path := by
      rw [display, Path.absolute_of_isAbsolute hpath.isAbsolute hpath.noParents, if_neg hcwd,
        if_neg hstart, hpath.tidy]
    rw [hself]
    exact abbreviates_self hhere hpath hwithin

end

end Disk

/-! ## 3. The files of a unit -/

namespace Disk

variable {disk : Disk} {path : String} {place : List String}

/-- Does the path open the regular file at `place`? -/
structure Opens (disk : Disk) (path : String) (place : List String) : Prop where
  resolve : disk.resolve path = .ok place
  read : ∃ content, disk.root.at? place = some (.file content) ∧ disk.read path = .ok content

/-- A path that leads to a regular file opens it. -/
theorem opens_of_resolve {content : ByteArray} (h : disk.resolve path = .ok place)
    (hat : disk.root.at? place = some (.file content)) : disk.Opens path place :=
  ⟨h, content, hat, read_eq_ok (node_eq_ok_iff.2 ⟨place, resolve_tidy h, hat⟩)⟩

end Disk

namespace Package

variable {disk : Disk} {location name : String} {place : List String} {entries : Entries Node}

/-- A source file that is found in a directory, by the path of the directory or by that path as it
is shown, and where the file lies. -/
structure IsFoundIn (disk : Disk) (location name : String) (place : List String) : Prop where
  belongs : ∃ entries, disk.list location = .ok entries ∧
    (Directory.Belongs disk location entries name ∨
      Directory.Belongs disk (disk.display location) entries name)
  leads : Directory.LeadsToFile disk location name place

/-- The places of the files that are found in the location of a package. Of the directories that
together are a package the first one counts, and a module is its own file. -/
def Found.Holds (disk : Disk) : Found → List String → Prop
  | package location, place => ∃ name, IsFoundIn disk location name place
  | module origin, place => disk.Opens origin place
  | portions (location :: _), place => ∃ name, IsFoundIn disk location name place
  | portions [], _ => False

/-- Do these paths open exactly the files at the places for which `holds` is true? -/
structure OpenExactly (disk : Disk) (paths : List String) (holds : List String → Prop) : Prop where
  sound : ∀ path ∈ paths, ∃ place, holds place ∧ disk.Opens path place
  complete : ∀ place, holds place → ∃ path ∈ paths, disk.Opens path place

section

variable (hhere : ∀ name ∈ disk.here, Node.IsName name)
  (hcwd : ∃ entries, disk.root.at? disk.here = some (.directory entries))

include hhere hcwd

/-- What a place holds lies where it lies as the place is shown. -/
theorem IsPlace.leadsToFile_display_iff (hplace : IsPlace disk location) :
    Directory.LeadsToFile disk (disk.display location) name place ↔
      Directory.LeadsToFile disk location name place := by
  rw [Directory.LeadsToFile, hplace.resolve_display hhere hcwd, Directory.LeadsToFile]

/-- A file that is found by the path of a place is found by the path as it is shown, which is not
longer. -/
theorem IsPlace.isFile_join_display (hplace : IsPlace disk location) (hname : Node.IsName name)
    (h : disk.isFile (Path.join location name) = true) :
    disk.isFile (Path.join (disk.display location) name) = true := by
  have hcomponent := Path.isComponent_of_isName hname
  obtain ⟨content, hnode⟩ := Disk.isFile_iff.1 h
  obtain ⟨target, htarget, -⟩ := Disk.node_eq_ok_iff.1 hnode
  obtain ⟨-, -, hsize, -⟩ := Disk.resolve_eq_ok_iff.1 htarget
  -- From the place the path was short enough. How the place is spelled there does not matter: as it
  -- is shown it is not longer than its shortest spelling.
  have hshort : (Path.join (disk.display location) name).utf8ByteSize ≤ Disk.maxPathBytes := by
    have htidy := Path.size_tidy_le (Path.endsInPiece_iff.1 hplace.endsInPiece).1
    have hle := Disk.size_join_display_le hhere hplace.toIsLocation hcomponent
    rw [Path.size_join hplace.tidy.endsInPiece hcomponent] at hle
    rw [Path.size_join hplace.endsInPiece hcomponent] at hsize
    omega
  rw [(hplace.sameWay_display hhere hcwd).node_join hname hsize hshort] at hnode
  exact Disk.isFile_iff.2 ⟨content, hnode⟩

variable (hroot : disk.root.WellFormed)

include hroot

/-- What is found in a place, and what belongs to the place as it is shown. -/
theorem IsPlace.isFoundIn_iff (hplace : IsPlace disk location)
    (hlist : disk.list location = .ok entries) :
    IsFoundIn disk location name place ↔
      Directory.Belongs disk (disk.display location) entries name ∧
        Directory.LeadsToFile disk (disk.display location) name place := by
  have hshown := (hplace.list_display hhere hcwd).trans hlist
  rw [hplace.leadsToFile_display_iff hhere hcwd]
  constructor
  · rintro ⟨⟨entries', hlist', hbelongs⟩, hleads⟩
    obtain rfl := Except.ok.inj (hlist.symm.trans hlist')
    refine ⟨hbelongs.elim (fun h => ?_) id, hleads⟩
    have hname := Disk.isName_of_list hroot hlist h.listed
    have hfile := ((Directory.isSource_iff hroot hlist).2 h).isFile
    exact (Directory.isSource_iff hroot hshown).1
      ⟨h.listed, h.shown, h.ending, hplace.isFile_join_display hhere hcwd hname hfile⟩
  · rintro ⟨hbelongs, hleads⟩
    exact ⟨⟨entries, hlist, .inr hbelongs⟩, hleads⟩

/-- The unit of a place as it is shown opens the files that are found in the place. -/
theorem IsPlace.openExactly_of_unit (hplace : IsPlace disk location) {unit : SourceUnit}
    (h : Directory.unit disk (disk.display location) = .ok unit) :
    OpenExactly disk unit.files fun place => ∃ name, IsFoundIn disk location name place := by
  obtain ⟨entries, hlist⟩ := hplace.list
  have hshown := (hplace.list_display hhere hcwd).trans hlist
  obtain rfl : unit = .ofNames (disk.display location)
      (Path.baseName (Path.absolute disk.cwd (disk.display location)))
      (Directory.eligible disk (disk.display location) entries) := by
    by_cases hnone : (Directory.eligible disk (disk.display location) entries).isEmpty = true
    · rw [Directory.unit_of_isEmpty hshown hnone] at h
      cases h
    · rw [Directory.unit_of_not_isEmpty hshown (Bool.eq_false_iff.2 hnone)] at h
      exact (Except.ok.inj h).symm
  -- Which files are opened is settled in the place as it is shown; what the unit is called is not.
  have hopens : ∀ {name place}, Directory.Belongs disk (disk.display location) entries name →
      Directory.LeadsToFile disk (disk.display location) name place →
      disk.Opens (Directory.pathIn (disk.display location) name) place := by
    intro name place hbelongs hleads
    obtain ⟨-, content, -, -, hat⟩ := id hleads
    exact Disk.opens_of_resolve
      ((Directory.isPartition_ofNames hroot hshown "").leads name place hbelongs hleads) hat
  constructor
  · intro path hpath
    obtain ⟨name, hsource, rfl⟩ := Directory.mem_files_iff.1 hpath
    have hbelongs := (Directory.isSource_iff hroot hshown).1 hsource
    obtain ⟨place, hleads⟩ := hbelongs.leads
    exact ⟨place, ⟨name, (hplace.isFoundIn_iff hhere hcwd hroot hlist).2 ⟨hbelongs, hleads⟩⟩,
      hopens hbelongs hleads⟩
  · rintro place ⟨name, hfound⟩
    obtain ⟨hbelongs, hleads⟩ := (hplace.isFoundIn_iff hhere hcwd hroot hlist).1 hfound
    have hsource := (Directory.isSource_iff hroot hshown).2 hbelongs
    exact ⟨_, Directory.mem_files_iff.2 ⟨name, hsource, rfl⟩, hopens hbelongs hleads⟩

end

/-- The unit of a module is the module file as it is shown. -/
theorem files_of_moduleUnit (hhere : ∀ name ∈ disk.here, Node.IsName name) {dotted origin : String}
    (horigin : Path.IsLocation origin) {unit : SourceUnit}
    (h : moduleUnit disk dotted origin = .ok unit) : unit.files = [disk.display origin] := by
  -- The parts of the path need not be known, since they are put together again as they were.
  have hsplit := Directory.pathIn_split (Disk.tidy_display hhere horigin)
  rw [moduleUnit] at h
  generalize Path.split (disk.display origin) = parts at h hsplit
  split at h
  · obtain rfl := Except.ok.inj h
    rw [Directory.files_eq]
    exact congrArg (fun path => [path]) hsplit
  · cases h

/-- The unit of a module opens the module file. -/
theorem IsModuleFile.openExactly_of_unit (hhere : ∀ name ∈ disk.here, Node.IsName name)
    (hcwd : ∃ entries, disk.root.at? disk.here = some (.directory entries)) {dotted origin : String}
    (hmodule : IsModuleFile disk origin) {unit : SourceUnit}
    (h : moduleUnit disk dotted origin = .ok unit) :
    OpenExactly disk unit.files (disk.Opens origin) := by
  obtain ⟨here, hat⟩ := hcwd
  have hshown : ∀ place, disk.Opens origin place → disk.Opens (disk.display origin) place := by
    rintro place ⟨hresolve, content, hcontent, -⟩
    have hdisplay := Disk.resolve_display hhere hmodule.toIsLocation hat hresolve
    exact Disk.opens_of_resolve hdisplay hcontent
  rw [files_of_moduleUnit hhere hmodule.toIsLocation h]
  constructor
  · intro path hpath
    obtain rfl := List.mem_singleton.1 hpath
    obtain ⟨content, hnode⟩ := Disk.isFile_iff.1 hmodule.isFile
    obtain ⟨place, hresolve, hcontent⟩ := Disk.node_eq_ok_iff.1 hnode
    have horigin := Disk.opens_of_resolve hresolve hcontent
    exact ⟨place, horigin, hshown place horigin⟩
  · exact fun place hplace => ⟨_, List.mem_singleton_self _, hshown place hplace⟩

/-- The unit of what a search has found opens the files that were found. -/
theorem Found.IsThere.openExactly_of_unit (hroot : disk.root.WellFormed)
    (hhere : ∀ name ∈ disk.here, Node.IsName name)
    (hcwd : ∃ entries, disk.root.at? disk.here = some (.directory entries)) {spec : Specifier}
    {found : Found} (hthere : found.IsThere disk) {unit : SourceUnit}
    (h : unitOf disk spec found = .ok unit) : OpenExactly disk unit.files (found.Holds disk) := by
  -- The unit of a directory is given the name of the package, and keeps its files.
  have hdirectory : ∀ location, IsPlace disk location →
      (Directory.unit disk (disk.display location)).bind (Package.unit.named spec) = .ok unit →
      OpenExactly disk unit.files fun place => ∃ name, IsFoundIn disk location name place := by
    intro location hplace h
    cases hinner : Directory.unit disk (disk.display location) with
    | error trouble =>
      rw [hinner] at h
      cases h
    | ok inner =>
      rw [hinner] at h
      obtain rfl := Except.ok.inj h
      show OpenExactly disk inner.files _
      exact hplace.openExactly_of_unit hhere hcwd hroot hinner
  rcases found with location | origin | (_ | ⟨location, rest⟩)
  · rw [unitOf] at h
    exact hdirectory location hthere h
  · rw [unitOf] at h
    exact IsModuleFile.openExactly_of_unit hhere hcwd hthere h
  · cases h
  · rw [unitOf] at h
    exact hdirectory location (hthere location List.mem_cons_self) h

/-- What is shown stands for what was found, if the working directory is there and reached without
links. Each normal absolute path is abbreviated by what is shown for it, and different paths are
shown differently. And whatever unit a specifier is resolved to, as long as there are no parent
components on the search path and neither the base directory nor anything on the search path is an
archive or leads into one, the paths of the unit open exactly the files that were found where its
package or module lies. -/
theorem shown_denotes (hroot : disk.root.WellFormed)
    (hcwd : ∃ entries, disk.root.at? disk.here = some (.directory entries)) :
    (∀ path, Path.IsNormalAbsolute path → disk.Abbreviates (disk.display path) path) ∧
    (∀ path path', Path.IsNormalAbsolute path → Path.IsNormalAbsolute path' →
      disk.display path = disk.display path' → path = path') ∧
    ∀ search text base unit, (∀ place ∈ search, ".." ∉ (Path.parse place).names) →
      (∀ place ∈ Path.absolute disk.cwd base :: search, disk.archive? (entry disk place) = none) →
      Package.unit disk search text base = .ok unit →
      ∃ spec found, Specifier.parse? text = some spec ∧ locate disk search base spec = .ok found ∧
        OpenExactly disk unit.files (found.Holds disk) := by
  have hhere : ∀ name ∈ disk.here, Node.IsName name := by
    obtain ⟨entries, hat⟩ := hcwd
    exact hroot.isName_of_at? hat
  have habbreviates : ∀ path, Path.IsNormalAbsolute path →
      disk.Abbreviates (disk.display path) path :=
    fun path hpath => Disk.abbreviates_display hhere hpath
  refine ⟨habbreviates, fun path path' hpath hpath' hsame => ?_,
    fun search text base unit hsearch houtside hunit => ?_⟩
  · rw [← (habbreviates path hpath).absolute, hsame, (habbreviates path' hpath').absolute]
  · cases hparse : Specifier.parse? text with
    | none =>
      rw [unit_of_parse?_eq_none hparse] at hunit
      cases hunit
    | some spec =>
      rw [unit_of_parse? hparse] at hunit
      cases hlocate : locate disk search base spec with
      | error trouble =>
        rw [hlocate] at hunit
        cases hunit
      | ok found =>
        rw [hlocate, Except.bind] at hunit
        have hspec := Specifier.wellSpelled_of_parse? hparse
        have hthere := isThere_of_locate hhere hsearch houtside hspec hlocate
        exact ⟨spec, found, rfl, hlocate, hthere.openExactly_of_unit hroot hhere hcwd hunit⟩

/-! ## 4. A working directory with a neighbour -/

/-- A disk whose working directory holds a package, and beside it a directory whose name begins like
that of the working directory. -/
def yard : Disk where
  root := .directory [("w", .directory [("pkg", .directory [("__init__.py", .file .empty)])]),
    ("wx", .directory [])]
  here := ["w"]

namespace yard

theorem isName_here : ∀ name ∈ yard.here, Node.IsName name := by decide

theorem wellFormed : yard.root.WellFormed := Node.isWellFormed_iff.1 (by decide)

/-- From the working directory, as from the root, an absolute path leads where its names do. -/
theorem resolve_of_spellsOut {path : String} {names : List String} {node : Node}
    (habsolute : path.toList.head? = some '/') (hpath : Disk.SpellsOut path names)
    (h : yard.root.at? names = some node) (hnode : ∀ target, node ≠ .link target) :
    yard.resolve path = .ok names := by
  obtain ⟨hnull, hempty, hsize, hsteps, hnames⟩ := hpath
  exact Disk.resolve_of_follow (if_pos (Path.isAbsolute_iff.2 habsolute)) ⟨hnull, hempty, hsize⟩
    hsteps (Disk.follow_of_at? hnames h hnode _)

theorem isLocation_here : Path.IsLocation yard.cwd where
  absolute := Disk.isAbsolute_cwd isName_here
  noParents := Disk.noParents_cwd isName_here
  nonempty := by decide
  endsInPiece := ⟨['/'], 'w', by decide, by decide⟩

theorem isPlace_here : IsPlace yard yard.cwd := by
  have hresolve : yard.resolve yard.cwd = .ok ["w"] :=
    resolve_of_spellsOut (by decide) (by decide) rfl (Node.directory_ne_link _)
  exact ⟨isLocation_here, _, Disk.list_eq_ok_iff.2 (Disk.node_eq_ok_iff.2 ⟨_, hresolve, rfl⟩)⟩

/-- The package, as the search spells it. -/
def package : String := Path.join yard.cwd "pkg"

theorem package_eq : package = "/w" ++ "/" ++ "pkg" :=
  Path.join_of_endsInPiece isLocation_here.endsInPiece (by rw [Path.isAbsolute_iff]; decide)

theorem isLocation_package : Path.IsLocation package := by
  have hpkg : ∀ name ∈ ["pkg"], Node.IsName name := by decide
  exact isLocation_here.descend hpkg

theorem join_package : Path.join package "__init__.py" = package ++ "/" ++ "__init__.py" :=
  Path.join_of_endsInPiece isLocation_package.endsInPiece (by rw [Path.isAbsolute_iff]; decide)

theorem resolve_package : yard.resolve package = .ok ["w", "pkg"] := by
  rw [package_eq]
  exact resolve_of_spellsOut (by decide) (by decide) rfl (Node.directory_ne_link _)

theorem list_package : yard.list package = .ok [("__init__.py", .file .empty)] :=
  Disk.list_eq_ok_iff.2 (Disk.node_eq_ok_iff.2 ⟨_, resolve_package, rfl⟩)

theorem isFile_initial : yard.isFile (Path.join package "__init__.py") = true := by
  have hresolve : yard.resolve (package ++ "/" ++ "__init__.py") =
      .ok ["w", "pkg", "__init__.py"] := by
    rw [package_eq]
    exact resolve_of_spellsOut (by decide) (by decide) rfl (Node.file_ne_link _)
  rw [join_package]
  exact Disk.isFile_iff.2 ⟨_, Disk.node_eq_ok_iff.2 ⟨_, hresolve, rfl⟩⟩

theorem locate_package : locate yard [] "." ⟨["pkg"]⟩ = .ok (.package package) := by
  rw [locate, Disk.absolute_dot isName_here]
  exact locateFrom_cons_of_step (step_of_initial isLocation_here (by decide) isFile_initial [] [])

theorem isSource_initial (spelled : String)
    (h : yard.isFile (Path.join spelled "__init__.py") = true) :
    Directory.IsSource yard spelled [("__init__.py", .file .empty)] "__init__.py" where
  listed := List.mem_singleton_self _
  shown := by
    rw [String.startsWith_string_eq_false_iff]
    decide
  ending := .inl (by decide)
  isFile := h

theorem isFoundIn_package :
    IsFoundIn yard package "__init__.py" ["w", "pkg", "__init__.py"] := by
  have hentry : ∀ name ∈ ["__init__.py"], Disk.IsEntryName name := by decide
  refine ⟨⟨_, list_package, .inl ?_⟩, ["w", "pkg"], .empty, resolve_package, ?_, rfl⟩
  · exact (Directory.isSource_iff wellFormed list_package).1 (isSource_initial _ isFile_initial)
  · exact Disk.follow_of_at? hentry rfl (Node.file_ne_link _) _

/-- The package is resolved to a unit. -/
theorem exists_unit : ∃ unit, Package.unit yard [] "pkg" "." = .ok unit := by
  have hparse : Specifier.parse? "pkg" = some ⟨["pkg"]⟩ := by decide
  have hplace : IsPlace yard package := ⟨isLocation_package, _, list_package⟩
  have hcwd : ∃ entries, yard.root.at? yard.here = some (.directory entries) := ⟨_, rfl⟩
  have hshown := (hplace.list_display isName_here hcwd).trans list_package
  -- The unit is formed in the package as it is shown, where the initial file is found as well.
  have hsome : (Directory.eligible yard (yard.display package)
      [("__init__.py", .file .empty)]).isEmpty = false :=
    Directory.isEmpty_eligible_eq_false_iff.2 ⟨_, isSource_initial _
      (hplace.isFile_join_display isName_here hcwd (by decide) isFile_initial)⟩
  rw [unit_of_parse? hparse, locate_package, Except.bind, unitOf,
    Directory.unit_of_not_isEmpty hshown hsome]
  exact ⟨_, rfl⟩

end yard

/-- The working directory is there, and what lies beside it is shown whole; the package in it is
resolved to a unit, whose file is the one that was found. -/
theorem yard_denotes :
    yard.root.WellFormed ∧ (∃ entries, yard.root.at? yard.here = some (.directory entries)) ∧
      (Path.IsNormalAbsolute "/wx" ∧ yard.Abbreviates (yard.display "/wx") "/wx" ∧
        Path.isAbsolute (yard.display "/wx") = true) ∧
      (Path.IsNormalAbsolute "/w/pkg" ∧ yard.display "/wx" ≠ yard.display "/w/pkg") ∧
      ∃ (unit : SourceUnit) (found : Found), Package.unit yard [] "pkg" "." = .ok unit ∧
        found.Holds yard ["w", "pkg", "__init__.py"] ∧
        OpenExactly yard unit.files (found.Holds yard) := by
  have hcwd : ∃ entries, yard.root.at? yard.here = some (.directory entries) := ⟨_, rfl⟩
  have hneighbour : Path.IsNormalAbsolute "/wx" := ⟨by decide, by decide⟩
  have hpackage : Path.IsNormalAbsolute "/w/pkg" := ⟨by decide, by decide⟩
  obtain ⟨habbreviates, hinj, hopen⟩ := shown_denotes yard.wellFormed hcwd
  refine ⟨yard.wellFormed, hcwd, ⟨hneighbour, habbreviates _ hneighbour, ?_⟩, ⟨hpackage, ?_⟩, ?_⟩
  · by_contra hrelative
    have hbeneath := ((habbreviates _ hneighbour).relative_iff (by decide)).1 hrelative
    exact absurd hbeneath (by decide)
  · exact fun hsame => absurd (hinj _ _ hneighbour hpackage hsame) (by decide)
  · obtain ⟨unit, hunit⟩ := yard.exists_unit
    have houtside : ∀ place ∈ [Path.absolute yard.cwd "."],
        yard.archive? (entry yard place) = none := by
      rw [Disk.absolute_dot yard.isName_here]
      exact List.forall_mem_singleton.2 yard.isPlace_here.archive?_eq_none
    obtain ⟨spec, found, hparse, hlocate, hexact⟩ :=
      hopen [] "pkg" "." unit (List.forall_mem_nil _) houtside hunit
    have hspec : Specifier.parse? "pkg" = some ⟨["pkg"]⟩ := by decide
    obtain rfl := Option.some.inj (hspec.symm.trans hparse)
    obtain rfl := Except.ok.inj (yard.locate_package.symm.trans hlocate)
    exact ⟨unit, .package yard.package, hunit, ⟨_, yard.isFoundIn_package⟩, hexact⟩

/-! ## 5. An archive on the search path -/

/-- An archive with one empty member, `mod.py`: the member, its record and the closing record. -/
def shed.bytes : List UInt8 :=
  [80, 75, 3, 4, 20, 0, 0, 0, 0, 0, 0, 0, 33, 0, 0, 0, 0, 0, 0, 0, 0, 0, 0, 0, 0, 0, 6, 0, 0, 0,
    109, 111, 100, 46, 112, 121] ++
  [80, 75, 1, 2, 20, 3, 20, 0, 0, 0, 0, 0, 0, 0, 33, 0, 0, 0, 0, 0, 0, 0, 0, 0, 0, 0, 0, 0, 6, 0,
    0, 0, 0, 0, 0, 0, 0, 0, 0, 0, 128, 1, 0, 0, 0, 0, 109, 111, 100, 46, 112, 121] ++
  [80, 75, 5, 6, 0, 0, 0, 0, 1, 0, 1, 0, 52, 0, 0, 0, 36, 0, 0, 0, 0, 0]

/-- A disk with this archive and nothing else. -/
def shed : Disk where
  root := .directory [("lib.zip", .file ⟨shed.bytes.toArray⟩)]
  here := []

namespace shed

/-- What the archive is for a search. -/
def stored : Archive where
  place := "lib.zip"
  members := ["lib.zip/mod.py"]

theorem names?_bytes : Archive.names? bytes = some ["mod.py"] := by decide +kernel

theorem archive?_lib : shed.archive? (entry shed "lib.zip") = some stored := by
  have hnode : shed.node "lib.zip" = .ok (.file ⟨bytes.toArray⟩) :=
    Disk.node_of_spellsOut rfl (show Disk.SpellsOut _ ["lib.zip"] by decide) rfl
      (Node.file_ne_link _)
  have hwhole : "/".intercalate ["lib.zip"].reverse = "lib.zip" := String.intercalate_singleton
  rw [entry, if_neg (by decide), Disk.archive?, show Path.pieces "lib.zip" = ["lib.zip"] by decide]
  show shed.archiveAbove? ["lib.zip"] [] = _
  rw [Disk.archiveAbove?, hwhole, hnode]
  dsimp only
  rw [names?_bytes]
  rfl

theorem step_mod : step shed [] "mod" ["/", "lib.zip"] = .ok (some (.module "lib.zip/mod.py")) := by
  have hfinder : finder? shed "lib.zip" = .ok (some (.ofArchive stored)) := by
    rw [finder?, archive?_lib]
  have hprobe : (Finder.ofArchive stored).probe "mod" = .module "lib.zip/mod.py" := by decide
  rw [step, lookUp_slash_of_find?_eq_none rfl rfl (by decide) (by decide) (by decide), lookUp,
    probeAt_of_finder? hfinder, hprobe]

theorem unit_mod :
    Package.unit shed ["lib.zip"] "mod" "." =
      .ok { directory := "/lib.zip", name := "mod", sources := ["mod.py"] } := by
  have hbase : Path.absolute shed.cwd "." = "/" := Disk.absolute_dot (List.forall_mem_nil _)
  have hparse : Specifier.parse? "mod" = some ⟨["mod"]⟩ := by decide
  have hlocate : locate shed ["lib.zip"] "." ⟨["mod"]⟩ = .ok (.module "lib.zip/mod.py") := by
    rw [locate, hbase]
    exact locateFrom_cons_of_step step_mod
  have habsolute : Path.absolute shed.cwd "lib.zip/mod.py" = "/lib.zip/mod.py" := by decide +kernel
  have hdisplay : shed.display "lib.zip/mod.py" = "/lib.zip/mod.py" := by
    have houtside : ¬"/lib.zip/mod.py".startsWith (shed.cwd ++ "/") = true := by
      rw [Bool.not_eq_true, String.startsWith_string_eq_false_iff]
      decide
    rw [Disk.display, habsolute, if_neg (by decide), if_neg houtside]
  rw [unit_of_parse? hparse, hlocate]
  show moduleUnit shed "mod" "lib.zip/mod.py" = _
  rw [moduleUnit, if_pos (by decide), hdisplay]
  decide

/-- The disk looks for something below the archive, and the archive is a file. -/
theorem resolve_member : shed.resolve "/lib.zip/mod.py" = .error .notDirectory := by
  have hfollow : Disk.follow shed.root Disk.maxLinks [] (["lib.zip"] ++ ["mod.py"]) =
      .error .notDirectory := by
    rw [Disk.follow_names_append (by decide)
      (show shed.root.at? ([] ++ ["lib.zip"]) = some _ from rfl) (Node.file_ne_link _),
      Disk.follow_cons]
    rfl
  rw [Disk.resolve, if_neg (by decide), if_neg (by decide), if_neg (by decide),
    show Disk.steps "/lib.zip/mod.py" = ["lib.zip"] ++ ["mod.py"] by decide, Disk.start,
    if_pos (Path.isAbsolute_iff.2 (by decide))]
  exact hfollow

end shed

/-- With an archive on the search path a module is found in it, and the one path of its unit leads
nowhere: there is nothing that it opens, and nothing can be read by it. -/
theorem archive_not_denoted :
    shed.root.WellFormed ∧ (∃ entries, shed.root.at? shed.here = some (.directory entries)) ∧
      (∀ place ∈ ["lib.zip"], ".." ∉ (Path.parse place).names) ∧
      ∃ unit : SourceUnit, Package.unit shed ["lib.zip"] "mod" "." = .ok unit ∧
        unit.files = ["/lib.zip/mod.py"] ∧
        shed.read "/lib.zip/mod.py" = .error .notDirectory ∧
        ∀ found : Found, ¬OpenExactly shed unit.files (found.Holds shed) := by
  have hread : shed.read "/lib.zip/mod.py" = .error .notDirectory := by
    rw [Disk.read, show Path.tidy "/lib.zip/mod.py" = "/lib.zip/mod.py" by decide, Disk.node,
      shed.resolve_member]
  have hfiles : SourceUnit.files { directory := "/lib.zip", name := "mod", sources := ["mod.py"] } =
      ["/lib.zip/mod.py"] := by decide +kernel
  refine ⟨Node.isWellFormed_iff.1 (by decide), ⟨_, rfl⟩, by decide, _, shed.unit_mod, hfiles, hread,
    fun found hexact => ?_⟩
  rw [hfiles] at hexact
  obtain ⟨place, -, hopens⟩ := hexact.sound "/lib.zip/mod.py" (List.mem_singleton_self _)
  have hresolve := hopens.resolve
  rw [shed.resolve_member] at hresolve
  cases hresolve

end Package

end LintFront
