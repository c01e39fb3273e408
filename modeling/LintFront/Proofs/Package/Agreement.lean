import LintFront.Proofs.FileTree.Dots
import LintFront.Proofs.Package.Archived
import LintFront.Proofs.Package.Below
/-!
# The walk and the search

A package argument with the marker is expanded by a walk: the directories below the package are
visited from the top, and the names on the way to each make a specifier of it. When the specifier
is resolved nothing of this is remembered, and its identifiers are searched for one by one. Here it
is shown that the two ways lead to the same directories.

The walk sees the package as it is shown to the user, and the search sees it where it was found. The
two are gone on from alike, so an initial file that the one comes to is an initial file that the
other comes to, as long as the path to it is not too long in either spelling. How far this carries
is told by `InReach`: the place where a package is found may be spelled with any number of dots and
slashes, which the walk does not see and the search has to carry along.

## Main statements

`Package.expand_agrees`: what a package argument with the marker stands for, and that it is resolved
to the directories that the walk has visited. `Package.unit_out_of_reach`: a directory that the walk
visits and the search does not come to.
-/

namespace LintFront.Package

variable {disk : Disk} {excludes : List String} {spec : Specifier} {location : String}

/-! ## 1. Resolving what a walk has visited

What a walk knows of a directory is the way from the root of the walk, and the root is a place as
it is shown. The search needs the way from the place itself, so the initial files that were seen
from the one have to be found from the other. -/

/-- Does every directory on the way down from `place` hold an initial file? The place itself need
not. -/
def HasInitials (disk : Disk) (place : String) (names : List String) : Prop :=
  ∀ upper, upper <+: names → upper ≠ [] →
    disk.isFile (Path.join (Directory.descend place upper) "__init__.py") = true

/-- Are the paths of these initial files, spelled from `place`, within the limits of a disk? -/
def InReach (place : String) (names : List String) : Prop :=
  ∀ upper, upper <+: names → upper ≠ [] →
    (Path.join (Directory.descend place upper) "__init__.py").utf8ByteSize ≤ Disk.maxPathBytes

/-- There is one way to go down by a single name. -/
theorem forall_prefix_singleton {p : List String → Prop} {name : String} :
    (∀ upper, upper <+: [name] → upper ≠ [] → p upper) ↔ p [name] := by
  simp [List.prefix_cons_iff]

/-- The initial files that are seen from a place as it is shown are seen from the place. -/
theorem HasInitials.of_display (hhere : ∀ name ∈ disk.here, Node.IsName name)
    (hcwd : ∃ entries, disk.root.at? disk.here = some (.directory entries)) {names : List String}
    (hnames : ∀ name ∈ names, Node.IsName name) (hplace : IsPlace disk location)
    (hreach : InReach location names) (h : HasInitials disk (disk.display location) names) :
    HasInitials disk location names := by
  intro upper hupper hne
  have hway := hplace.sameWay_display hhere hcwd
  have hinit : Node.IsName "__init__.py" := by decide
  have hdown : ∀ name ∈ upper ++ ["__init__.py"], Node.IsName name := by
    intro name hname
    rcases List.mem_append.1 hname with hname | hname
    · exact hnames name (hupper.subset hname)
    · exact List.mem_singleton.1 hname ▸ hinit
  have hspelled : ∀ s, (upper ++ ["__init__.py"]).foldl Path.join s =
      Path.join (Directory.descend s upper) "__init__.py" := fun s => by
    rw [List.foldl_append]
    rfl
  -- The path as it is shown is short enough, since the file was found by it. That the path from the
  -- place is short enough does not follow: the place may be spelled at any length.
  obtain ⟨content, hfile⟩ := Disk.isFile_iff.1 (h upper hupper hne)
  obtain ⟨target, hfound, -⟩ := Disk.node_eq_ok_iff.1 hfile
  obtain ⟨-, -, hsize, -⟩ := Disk.resolve_eq_ok_iff.1 hfound
  have hsame := hway.node_descend hdown (by rw [hspelled]; exact hreach upper hupper hne)
    (by rw [hspelled]; exact hsize)
  rw [hspelled, hspelled, hfile] at hsame
  exact Disk.isFile_iff.2 ⟨content, hsame⟩

/-- A directory that lies below a place along initial files is a place as well. -/
theorem IsPlace.descend {names : List String} (hnames : ∀ name ∈ names, Node.IsName name)
    (hplace : IsPlace disk location) (h : HasInitials disk location names) :
    IsPlace disk (Directory.descend location names) := by
  have hlocation : Path.IsLocation (Directory.descend location names) :=
    hplace.toIsLocation.descend hnames
  by_cases hnil : names = []
  · subst hnil
    exact hplace
  · obtain ⟨content, hfile⟩ := Disk.isFile_iff.1 (h names List.prefix_rfl hnil)
    exact ⟨hlocation, Disk.exists_list_of_node_join hlocation.endsInPiece (by decide) hfile⟩

/-- The specifier of what lies below a package along initial files is resolved to the directory to
which its identifiers lead down. -/
theorem unit_below {search : List String} {base : String} {found : Found}
    (hspec : spec.WellSpelled) (hlocate : locate disk search base spec = .ok found)
    (hfound : found.locations.head? = some location) (hlocation : Path.IsLocation location)
    {names : List String} (hnames : ∀ name ∈ names, Text.isIdentifier name = true)
    (h : HasInitials disk location names) :
    unit disk search (spec.below names).dotted base =
      (Directory.unit disk (disk.display (Directory.descend location names))).bind
        (unit.named (spec.below names)) := by
  obtain ⟨others, hothers⟩ : ∃ others, found.locations = location :: others := by
    cases hlocations : found.locations with
    | nil => simp [hlocations] at hfound
    | cons first others =>
      rw [hlocations, List.head?_cons, Option.some.injEq] at hfound
      exact ⟨others, by rw [hfound]⟩
  -- The search for the whole specifier begins as the one for the package, which has succeeded.
  have hfirst : locateFrom disk (spec.below names).dotted base []
      (.portions (Path.absolute disk.cwd base :: search)) spec.segments = .ok found :=
    locateFrom_congr hlocate
  have hrest : locate disk search base (spec.below names) =
      locateFrom disk (spec.below names).dotted base spec.segments found names :=
    locateFrom_append hfirst names
  rw [unit_of_parse? (Specifier.parse?_dotted (hspec.below hnames)), hrest]
  by_cases hnil : names = []
  · -- The package itself may have been found as a directory without an initial file.
    subst hnil
    show unitOf disk (spec.below []) found = _
    rcases found with first | origin | (_ | ⟨first, rest⟩)
    · obtain rfl : first = location := (List.cons.inj hothers).1
      rfl
    · cases hothers
    · cases hothers
    · obtain rfl : first = location := (List.cons.inj hothers).1
      rfl
  · rw [locateFrom_of_initial hlocation hothers hnames hnil h, Except.bind, unitOf]

/-! ## 2. The walk and the search -/

/-- The package that an argument with the marker names, and the place where the search finds it. -/
structure FindsRoot (disk : Disk) (search : List String) (text base : String) (spec : Specifier)
    (location : String) : Prop where
  parse : Specifier.parse? (stripMarker text) = some spec
  locate : ∃ found, locate disk search base spec = .ok found ∧
    found.locations.head? = some location

/-- When a package with the marker can be expanded it was found, and the walk from it succeeded. -/
theorem exists_findsRoot {search : List String} {text base : String} {specifiers : List String}
    (hmarker : hasMarker text = true)
    (h : expand disk search excludes text base = .ok specifiers) :
    ∃ spec location paths, FindsRoot disk search text base spec location ∧
      Directory.expand disk excludes (disk.display location) = .ok paths ∧
      specifiers = paths.filterMap (specifierBelow? disk spec (disk.display location)) := by
  cases hparse : Specifier.parse? (stripMarker text) with
  | none =>
    rw [expand_of_parse?_eq_none hmarker hparse] at h
    cases h
  | some spec =>
    rw [expand_of_parse? hmarker hparse] at h
    cases hlocate : locate disk search base spec with
    | error trouble =>
      rw [hlocate] at h
      cases h
    | ok found =>
      rw [hlocate, Except.bind, expansionOf] at h
      split at h
      · cases h
      · rename_i location others hlocations
        split at h
        · cases h
        · rename_i paths hpaths
          have hhead : found.locations.head? = some location := by rw [hlocations]; rfl
          exact ⟨spec, location, paths, ⟨hparse, found, hlocate, hhead⟩, hpaths,
            (Except.ok.inj h).symm⟩

/-- What a package argument with the marker stands for, when that can be told. The specifiers are
different, each is in normal form, and they are those of the directories that a walk from the
package visits, as far as these can be named by identifiers. And each of these specifiers leads the
search to the directory that was visited, and to the same files, if there is an initial file in each
directory on the way and no path is too long. -/
theorem expand_agrees {search : List String} {text base : String} {specifiers : List String}
    (hroot : disk.root.WellFormed)
    (hcwd : ∃ entries, disk.root.at? disk.here = some (.directory entries))
    (hsearch : ∀ place ∈ search, ".." ∉ (Path.parse place).names)
    (hmarker : hasMarker text = true)
    (h : expand disk search excludes text base = .ok specifiers) :
    ∃ spec location, FindsRoot disk search text base spec location ∧ specifiers.Nodup ∧
      (∀ s ∈ specifiers, (Specifier.parse s).map Specifier.dotted = .ok s) ∧
      (∀ s, s ∈ specifiers ↔ ∃ names,
        Directory.Reaches disk excludes (disk.display location) names ∧
        (∀ name ∈ names, Text.isIdentifier name = true) ∧ s = (spec.below names).dotted) ∧
      ∀ names d, Directory.Reaches disk excludes (disk.display location) names →
        (∀ name ∈ names, Text.isIdentifier name = true) →
        d = Path.normal (Directory.descend (disk.display location) names) →
        HasInitials disk (disk.display location) names →
        InReach location names → FilesFit disk d →
        ∃ resolved visited,
          Package.unit disk search (spec.below names).dotted base = .ok resolved ∧
          Directory.unit disk d = .ok visited ∧
          Path.absolute disk.cwd resolved.directory = Path.absolute disk.cwd d ∧
          SameFiles resolved visited := by
  obtain ⟨spec, location, paths, hfinds, hpaths, rfl⟩ := exists_findsRoot hmarker h
  obtain ⟨hparse, found, hlocate, hfound⟩ := hfinds
  have hspec := Specifier.wellSpelled_of_parse? hparse
  have hhere : ∀ name ∈ disk.here, Node.IsName name := by
    obtain ⟨entries, hat⟩ := hcwd
    exact hroot.isName_of_at? hat
  have hlies : IsPlace disk location ∨ IsStored disk location :=
    isPlace_or_isStored_of_locate hhere hsearch hspec hlocate location (List.mem_of_head? hfound)
  have hup : ".." ∉ (Path.parse (disk.display location)).names :=
    hlies.elim (fun h => Disk.noParents_display hhere h.toIsLocation)
      fun h => h.noParents_display hhere
  obtain ⟨hnodup, hmem⟩ := specifiers_of_expand hroot hhere hspec hup hpaths
  refine ⟨spec, location, ⟨hparse, found, hlocate, hfound⟩, hnodup, ?_, hmem, ?_⟩
  · intro s hs
    obtain ⟨names, -, hnames, rfl⟩ := (hmem s).1 hs
    exact Specifier.dotted_parse (hspec.below hnames)
  · -- Every directory on the way is a place of the search, and the last one forms its unit from
    -- there as it does from where the walk has found it.
    intro names d hreaches hnames hd hinitials hreach hfits
    have hplace : IsPlace disk location := by
      -- A walk that visits anything begins in a directory.
      obtain ⟨node, -, hnode, -⟩ := hreaches.leads
      obtain ⟨entries, hat⟩ := hcwd
      exact hlies.resolve_right fun h => h.node_display_ne_ok hhere hat node hnode
    have hdown : ∀ name ∈ names, Node.IsName name :=
      fun name hname => Text.isName_of_isIdentifier (hnames name hname)
    have hinitials' : HasInitials disk location names :=
      hinitials.of_display hhere hcwd hdown hplace hreach
    obtain ⟨resolved, visited, hresolved, hvisited, hdirectory, hsame⟩ :=
      sameFiles_of_isPlace hroot hhere hcwd hdown hplace.toIsLocation
        (hplace.descend hdown hinitials') hd (hd ▸ hreaches.buildable) hfits
    refine ⟨{ resolved with name := (spec.below names).dotted }, visited, ?_, hvisited,
      hdirectory, hsame.sources, hsame.stubs, hsame.tests⟩
    rw [unit_below hspec hlocate hfound hplace.toIsLocation hnames hinitials', hresolved]
    rfl

/-! ## 3. A package that is out of reach

The limit on paths is met by a place that is spelled with many dots. They lead nowhere, and the
place is shown without them, so nothing is too long for the walk. The search goes on from the place
with all its dots: for a short name there is room after them, for a long one there is not.

All facts about the disk are stated for any number of dots and any name, as far as they fit. -/

/-- A disk with a package that holds a package of this name. -/
def shelf (name : String) : Disk where
  root := .directory [("lib", .directory [("pkg", .directory
    [("__init__.py", .file .empty), (name, .directory [("__init__.py", .file .empty)])])])]
  here := []

namespace shelf

/-- The directory that holds the package, spelled with so many dots at its end. -/
def far : Nat → String
  | 0 => "/lib"
  | n + 1 => far n ++ "/" ++ "."

theorem far_eq_dotted (n : Nat) : far n = Path.dotted "/lib" n := by
  induction n with
  | zero => rfl
  | succ n ih => rw [far, Path.dotted, ih]

theorem endsInPiece_lib : Path.EndsInPiece "/lib" := ⟨['/', 'l', 'i'], 'b', rfl, by decide⟩

theorem endsInPiece_far (n : Nat) : Path.EndsInPiece (far n) :=
  far_eq_dotted n ▸ Path.endsInPiece_dotted endsInPiece_lib n

theorem size_far (n : Nat) : (far n).utf8ByteSize = 4 + 2 * n :=
  far_eq_dotted n ▸ Path.size_dotted "/lib" n

theorem nullFree_far (n : Nat) : Path.NullFree (far n) :=
  far_eq_dotted n ▸ Path.nullFree_dotted (by decide) n

theorem parse_far (n : Nat) : Path.parse (far n) = ⟨1, ["lib"]⟩ := by
  rw [far_eq_dotted, Path.parse_dotted endsInPiece_lib]
  decide

theorem isLocation_far (n : Nat) : Path.IsLocation (far n) where
  absolute := by
    rw [Path.isAbsolute_iff_anchor, parse_far]
    exact Nat.one_ne_zero
  noParents := by
    rw [parse_far]
    decide
  nonempty := by
    rw [parse_far]
    exact List.cons_ne_nil _ _
  endsInPiece := endsInPiece_far n

/-- The package, as the search spells it. Without dots it is spelled as it is shown. -/
def package (n : Nat) : String := Directory.descend (far n) ["pkg"]

theorem isName_pkg : ∀ n ∈ ["pkg"], Node.IsName n := by decide

theorem isLocation_package (n : Nat) : Path.IsLocation (package n) :=
  (isLocation_far n).descend isName_pkg

theorem parse_package (n : Nat) : Path.parse (package n) = ⟨1, ["lib", "pkg"]⟩ := by
  rw [package, Directory.descend, Path.parse_descend_of_isName isName_pkg, parse_far]
  rfl

theorem tidy_package (n : Nat) : Path.tidy (package n) = "/lib/pkg" := by
  rw [Path.tidy, parse_package]
  rfl

theorem size_package (n : Nat) : (package n).utf8ByteSize = 8 + 2 * n := by
  have hpkg : Path.IsComponent "pkg" := Path.isComponent_of_isName (by decide)
  have hsize : "pkg".utf8ByteSize = 3 := by decide
  show (Path.join (far n) "pkg").utf8ByteSize = _
  rw [Path.size_join (endsInPiece_far n) hpkg, size_far, hsize]
  omega

theorem package_zero : package 0 = "/lib/pkg" := by
  have hpkg : Path.IsComponent "pkg" := Path.isComponent_of_isName (by decide)
  show Path.join (far 0) "pkg" = _
  rw [Path.join_of_endsInPiece (endsInPiece_far 0) hpkg.not_isAbsolute]
  decide

variable {name : String}

theorem isName_here : ∀ n ∈ (shelf name).here, Node.IsName n := List.forall_mem_nil _

/-- The dots on the way lead nowhere. -/
theorem follow_far (n : Nat) (rest : List String) :
    Disk.follow (shelf name).root Disk.maxLinks [] (Disk.steps (far n) ++ rest) =
      Disk.follow (shelf name).root Disk.maxLinks ["lib"] rest := by
  have hsteps : Disk.steps "/lib" = ["lib"] := by decide
  have hlib : ∀ n ∈ ["lib"], Disk.IsEntryName n := by decide
  have hat : (shelf name).root.at? ([] ++ ["lib"]) = some (.directory _) := rfl
  rw [far_eq_dotted, Disk.steps_dotted endsInPiece_lib, List.append_assoc, hsteps,
    Disk.follow_names_append hlib hat (Node.directory_ne_link _)]
  exact Disk.follow_dots hat _ n rest

/-- What lies in the directory is found there, however that is spelled, by a path that is short
enough. -/
theorem node_far {names : List String} {node : Node} {n : Nat}
    (h : (shelf name).root.at? ("lib" :: names) = some node) (hnode : ∀ target, node ≠ .link target)
    (hnames : ∀ n ∈ names, Node.IsName n ∧ n.utf8ByteSize ≤ Disk.maxNameBytes)
    (hfits : (Directory.descend (far n) names).utf8ByteSize ≤ Disk.maxPathBytes) :
    (shelf name).node (Directory.descend (far n) names) = .ok node := by
  have hstart : Disk.start (shelf name).here (far n) = [] := Disk.start_nil _
  have hentry : ∀ n ∈ names, Disk.IsEntryName n := fun n hn =>
    ⟨(hnames n hn).1.2.1, (hnames n hn).1.2.2.1, (hnames n hn).2⟩
  have hresolve : (shelf name).resolve (Directory.descend (far n) names) =
      .ok (["lib"] ++ names) := by
    rw [Directory.descend, Disk.resolve_descend (endsInPiece_far n) (nullFree_far n)
      (fun n hn => (hnames n hn).1) hfits, hstart, follow_far]
    exact Disk.follow_of_at? hentry h hnode _
  exact Disk.node_eq_ok_iff.2 ⟨_, hresolve, h⟩

theorem node_package {n : Nat} (hfits : 8 + 2 * n ≤ Disk.maxPathBytes) :
    (shelf name).node (package n) = .ok (.directory
      [("__init__.py", .file .empty), (name, .directory [("__init__.py", .file .empty)])]) := by
  have hsize : (Directory.descend (far n) ["pkg"]).utf8ByteSize ≤ Disk.maxPathBytes := by
    rw [show Directory.descend (far n) ["pkg"] = package n from rfl, size_package]
    exact hfits
  exact node_far rfl (Node.directory_ne_link _) (by decide) hsize

theorem isFile_package {n : Nat} (hfits : 20 + 2 * n ≤ Disk.maxPathBytes) :
    (shelf name).isFile (Path.join (package n) "__init__.py") = true := by
  have hinitial : Path.IsComponent "__init__.py" := Path.isComponent_of_isName (by decide)
  have hsize : (Directory.descend (far n) ["pkg", "__init__.py"]).utf8ByteSize ≤
      Disk.maxPathBytes := by
    have hlast : "__init__.py".utf8ByteSize = 11 := by decide
    show (Path.join (package n) "__init__.py").utf8ByteSize ≤ _
    rw [Path.size_join (isLocation_package n).endsInPiece hinitial, size_package, hlast]
    omega
  have hnode : (shelf name).node (Directory.descend (far n) ["pkg", "__init__.py"]) =
      .ok (.file .empty) := node_far rfl (Node.file_ne_link _) (by decide) hsize
  exact Disk.isFile_iff.2 ⟨_, hnode⟩

/-- In the working directory there is nothing of the name of the package. -/
theorem lookUp_slash (rest : List String) :
    lookUp (shelf name) "pkg" [] ("/" :: rest) = lookUp (shelf name) "pkg" [] rest := by
  have habsent : "pkg" ∉ ["lib"] ∧ ∀ suffix ∈ moduleSuffixes, "pkg" ++ suffix ∉ ["lib"] := by decide
  exact lookUp_slash_of_find?_eq_none rfl rfl (by decide) (by decide) habsent rest

theorem locate_pkg {n : Nat} (hfits : 20 + 2 * n ≤ Disk.maxPathBytes) :
    locate (shelf name) [far n] "." ⟨["pkg"]⟩ = .ok (.package (package n)) := by
  have hbase : Path.absolute (shelf name).cwd "." = "/" := Disk.absolute_dot isName_here
  have hstep : step (shelf name) [] "pkg" ["/", far n] = .ok (some (.package (package n))) := by
    have hinitial : (shelf name).isFile (Path.join (package n) "__init__.py") = true :=
      isFile_package hfits
    have hfound := step_of_initial (isLocation_far n) (by decide) hinitial [] []
    rw [step] at hfound ⊢
    rw [lookUp_slash]
    exact hfound
  rw [locate, hbase]
  exact locateFrom_cons_of_step hstep

/-- The place of the package is settled by where it is found. -/
theorem eq_package {n : Nat} {spec : Specifier} {location : String}
    (hfits : 20 + 2 * n ≤ Disk.maxPathBytes)
    (h : FindsRoot (shelf name) [far n] "pkg/..." "." spec location) :
    spec = ⟨["pkg"]⟩ ∧ location = package n := by
  have hparse : Specifier.parse? (stripMarker "pkg/...") = some ⟨["pkg"]⟩ := by decide
  obtain rfl := Option.some.inj (hparse.symm.trans h.parse)
  obtain ⟨found, hlocate, hfound⟩ := h.locate
  rw [locate_pkg hfits] at hlocate
  obtain rfl := Except.ok.inj hlocate
  exact ⟨rfl, (Option.some.inj hfound).symm⟩

theorem display_package (n : Nat) : (shelf name).display (package n) = package 0 := by
  have hcwd : (shelf name).cwd = "/" := rfl
  have hout : ¬(shelf name).IsWithin (package n) := by
    rw [Disk.IsWithin, tidy_package, hcwd, String.startsWith_string_iff]
    decide
  rw [Disk.display_of_not_isWithin (isLocation_package n) hout, tidy_package, package_zero]

section

variable (hname : Text.isIdentifier name = true)

include hname

theorem ne_initial : "__init__.py" ≠ name := by
  rintro rfl
  exact absurd hname (by decide)

theorem wellFormed : (shelf name).root.WellFormed := by
  have hentry := Text.isName_of_isIdentifier hname
  rw [← Node.isWellFormed_iff]
  simp [shelf, Node.isWellFormed, Node.areWellFormed, hentry, ne_initial hname]
  decide

theorem at?_below :
    (shelf name).root.at? ["lib", "pkg", name] =
      some (.directory [("__init__.py", .file .empty)]) := by
  simp [shelf, Node.at?, Node.entries, Entries.find?, ne_initial hname]

theorem size_below (n : Nat) :
    (Path.join (package n) name).utf8ByteSize = 9 + 2 * n + name.utf8ByteSize := by
  have hcomponent := Path.isComponent_of_isName (Text.isName_of_isIdentifier hname)
  rw [Path.size_join (isLocation_package n).endsInPiece hcomponent, size_package]
  omega

theorem size_initial (n : Nat) :
    (Path.join (Path.join (package n) name) "__init__.py").utf8ByteSize =
      21 + 2 * n + name.utf8ByteSize := by
  have hcomponent := Path.isComponent_of_isName (Text.isName_of_isIdentifier hname)
  have hinitial : Path.IsComponent "__init__.py" := Path.isComponent_of_isName (by decide)
  have hsize : "__init__.py".utf8ByteSize = 11 := by decide
  rw [Path.size_join (hcomponent.endsInPiece.join _) hinitial, size_below hname, hsize]
  omega

/-- The inner package is visited by its shortest spelling. -/
theorem normal_below :
    Path.normal (Directory.descend (package 0) [name]) = Directory.descend (package 0) [name] := by
  have hentry := Text.isName_of_isIdentifier hname
  have hnames : ∀ n ∈ [name], Node.IsName n := List.forall_mem_singleton.2 hentry
  have htidy : Path.tidy (package 0) = package 0 := (tidy_package 0).trans package_zero.symm
  have hne := (isLocation_package 0).nonempty
  rw [Directory.descend,
    Path.normal_of_notMem (Path.notMem_descend (isLocation_package 0).noParents hnames)]
  exact Path.tidy_join htidy hne (Path.isComponent_of_isName hentry)

theorem inReach_below {n : Nat} (hfits : 21 + 2 * n + name.utf8ByteSize ≤ Disk.maxPathBytes) :
    InReach (package n) [name] := by
  refine forall_prefix_singleton.2 ?_
  show (Path.join (Path.join (package n) name) "__init__.py").utf8ByteSize ≤ _
  rw [size_initial hname]
  exact hfits

variable (hshort : name.utf8ByteSize ≤ Disk.maxNameBytes)

include hshort

theorem list_below :
    (shelf name).list (Directory.descend (package 0) [name]) =
      .ok [("__init__.py", .file .empty)] := by
  have hnames : ∀ n ∈ ["pkg", name], Node.IsName n ∧ n.utf8ByteSize ≤ Disk.maxNameBytes :=
    List.forall_mem_cons.2 ⟨by decide,
      List.forall_mem_singleton.2 ⟨Text.isName_of_isIdentifier hname, hshort⟩⟩
  have hfits : (Directory.descend (far 0) ["pkg", name]).utf8ByteSize ≤ Disk.maxPathBytes := by
    have hlimits : Disk.maxNameBytes + 100 ≤ Disk.maxPathBytes := by decide
    show (Path.join (package 0) name).utf8ByteSize ≤ _
    rw [size_below hname]
    omega
  have hnode := node_far (at?_below hname) (Node.directory_ne_link _) hnames hfits
  exact Disk.list_eq_ok_iff.2 hnode

theorem isFile_initial :
    (shelf name).isFile (Path.join (Directory.descend (package 0) [name]) "__init__.py") =
      true := by
  have hat : (shelf name).root.at? ["lib", "pkg", name, "__init__.py"] = some (.file .empty) := by
    have hsplit := Node.at?_append (shelf name).root ["lib", "pkg", name] ["__init__.py"]
    rw [at?_below hname] at hsplit
    exact hsplit
  have hnames : ∀ n ∈ ["pkg", name, "__init__.py"],
      Node.IsName n ∧ n.utf8ByteSize ≤ Disk.maxNameBytes := by
    rw [List.forall_mem_cons, List.forall_mem_cons]
    exact ⟨by decide, ⟨Text.isName_of_isIdentifier hname, hshort⟩, by decide⟩
  have hfits : (Directory.descend (far 0) ["pkg", name, "__init__.py"]).utf8ByteSize ≤
      Disk.maxPathBytes := by
    have hlimits : Disk.maxNameBytes + 100 ≤ Disk.maxPathBytes := by decide
    show (Path.join (Path.join (package 0) name) "__init__.py").utf8ByteSize ≤ _
    rw [size_initial hname]
    omega
  have hnode := node_far hat (Node.file_ne_link _) hnames hfits
  exact Disk.isFile_iff.2 ⟨_, hnode⟩

theorem hasInitials_below : HasInitials (shelf name) (package 0) [name] :=
  forall_prefix_singleton.2 (isFile_initial hname hshort)

theorem filesFit_below : FilesFit (shelf name) (Directory.descend (package 0) [name]) := by
  intro entries hlist file hfile _
  rw [list_below hname hshort] at hlist
  obtain rfl := Except.ok.inj hlist
  obtain rfl : file = "__init__.py" := by simpa [Entries.names] using hfile
  have hlimits : Disk.maxNameBytes + 100 ≤ Disk.maxPathBytes := by decide
  show (Path.join (Path.join (package 0) name) "__init__.py").utf8ByteSize ≤ _
  rw [size_initial hname]
  omega

variable (hkept : Directory.isSkipped [] name = false)

include hkept

/-- A walk visits the inner package. -/
theorem reaches_below : Directory.Reaches (shelf name) [] (package 0) [name] where
  leads := by
    refine ⟨_, [("__init__.py", .file .empty)], node_package (by decide), ?_⟩
    simp [Node.at?, Node.entries, Entries.find?, ne_initial hname]
  kept := List.forall_mem_singleton.2 hkept
  fits := by
    have hlimits : Disk.maxNameBytes + 100 ≤ Disk.maxPathBytes := by decide
    show (Path.join (package 0) name).utf8ByteSize ≤ _
    rw [size_below hname]
    omega
  buildable := by
    have hsource : Directory.IsSource (shelf name) (Directory.descend (package 0) [name])
        [("__init__.py", .file .empty)] "__init__.py" :=
      ⟨by decide, by rw [String.startsWith_string_eq_false_iff]; decide, by decide,
        isFile_initial hname hshort⟩
    rw [normal_below hname, Directory.isBuildable_of_list (list_below hname hshort),
      Directory.isEmpty_eligible_eq_false_iff.2 ⟨_, hsource⟩]
    rfl

/-- The inner package is among those for which the package with the marker stands. -/
theorem exists_specifiers {n : Nat} (hfits : 20 + 2 * n ≤ Disk.maxPathBytes) :
    ∃ specifiers, expand (shelf name) [far n] [] "pkg/..." "." = .ok specifiers ∧
      (Specifier.below ⟨["pkg"]⟩ [name]).dotted ∈ specifiers := by
  have hroot := wellFormed hname
  have hspec : Specifier.WellSpelled ⟨["pkg"]⟩ := ⟨by decide, by decide⟩
  have hnull : Path.NullFree (package 0) := by
    rw [package_zero]
    decide
  obtain ⟨paths, hpaths, -⟩ := Directory.exists_expand_eq_ok hroot hnull
  have hmem := (specifiers_of_expand hroot isName_here hspec (isLocation_package 0).noParents
    hpaths).2
  refine ⟨paths.filterMap (specifierBelow? (shelf name) ⟨["pkg"]⟩ (package 0)), ?_, ?_⟩
  · have hparse : Specifier.parse? (stripMarker "pkg/...") = some ⟨["pkg"]⟩ := by decide
    rw [expand_of_parse? (by decide) hparse, locate_pkg hfits, Except.bind, expansionOf]
    dsimp only [Found.locations]
    rw [display_package, hpaths]
  · exact (hmem _).2 ⟨[name], reaches_below hname hshort hkept,
      List.forall_mem_singleton.2 hname, rfl⟩

end

/-- The search goes no further when the place in which it stands is spelled too long. It takes what
it is not allowed to ask for as missing. -/
theorem unit_of_long {n : Nat} (hname : Text.isIdentifier name = true)
    (hfits : 20 + 2 * n ≤ Disk.maxPathBytes)
    (hfar : Disk.maxPathBytes < 9 + 2 * n + name.utf8ByteSize) :
    Package.unit (shelf name) [far n] (Specifier.below ⟨["pkg"]⟩ [name]).dotted "." =
      .error (.noUnit (.packageNotFound (Specifier.below ⟨["pkg"]⟩ [name]).dotted ".")) := by
  have hspec : Specifier.WellSpelled ⟨["pkg"]⟩ := ⟨by decide, by decide⟩
  have hcomponent := Path.isComponent_of_isName (Text.isName_of_isIdentifier hname)
  have hlocation := isLocation_package n
  have hnode : (shelf name).node (package n) = .ok (.directory _) := node_package (by omega)
  have hinside : Disk.maxPathBytes < (inside (package n) name).utf8ByteSize := by
    rw [inside_eq_join hlocation.endsInPiece hcomponent, size_below hname]
    exact hfar
  have habsolute := Path.isAbsolute_iff.1 hlocation.absolute
  have hprobe : probeAt (shelf name) name (package n) = .ok .nothing := by
    have hanchored : anchored (shelf name) (package n) = package n := anchored_of_head habsolute
    rw [← hanchored] at hinside
    rw [probeAt_of_finder? (finder?_of_head habsolute (Disk.isDirectory_iff.2 ⟨_, hnode⟩)),
      probe_of_long hcomponent.endsInPiece hinside]
  have hstep : step (shelf name) ["pkg"] name [package n] = .ok none := by
    rw [step, lookUp, hprobe]
    rfl
  have hfirst : locateFrom (shelf name) (Specifier.below ⟨["pkg"]⟩ [name]).dotted "." []
      (.portions (Path.absolute (shelf name).cwd "." :: [far n])) ["pkg"] =
        .ok (.package (package n)) := locateFrom_congr (locate_pkg hfits)
  have hrest : locate (shelf name) [far n] "." (Specifier.below ⟨["pkg"]⟩ [name]) =
      locateFrom (shelf name) (Specifier.below ⟨["pkg"]⟩ [name]).dotted "." ["pkg"]
        (.package (package n)) [name] := locateFrom_append hfirst [name]
  have hnone : locateFrom (shelf name) (Specifier.below ⟨["pkg"]⟩ [name]).dotted "." ["pkg"]
      (.package (package n)) [name] = .error (.noUnit (.packageNotFound
        (Specifier.below ⟨["pkg"]⟩ [name]).dotted ".")) :=
    locateFrom_cons_of_none (List.cons_ne_nil _ _) hstep
  rw [unit_of_parse? (Specifier.parse?_dotted (hspec.below (List.forall_mem_singleton.2 hname))),
    hrest, hnone]
  rfl

/-- A name of so many letters. -/
def longName : Nat → String
  | 0 => ""
  | n + 1 => longName n ++ "a"

theorem toList_longName (n : Nat) : (longName n).toList = List.replicate n 'a' := by
  induction n with
  | zero => rfl
  | succ n ih =>
    rw [longName, String.toList_append, ih]
    exact List.replicate_succ'.symm

theorem size_longName (n : Nat) : (longName n).utf8ByteSize = n := by
  induction n with
  | zero => rfl
  | succ n ih =>
    rw [longName, String.utf8ByteSize_append, ih]
    rfl

theorem isIdentifier_longName (n : Nat) : Text.isIdentifier (longName (n + 1)) = true := by
  have hcontinues : Text.continuesIdentifier 'a' = true := by decide
  have hstarts : Text.startsIdentifier 'a' = true := by decide
  rw [Text.isIdentifier, toList_longName, List.replicate_succ]
  simp [hcontinues, hstarts]

end shelf

open shelf

/-- The inner package of a shelf is resolved to the directory that was visited, although the place
of the outer one is spelled with a dot. -/
theorem agrees_shelf :
    ∃ specifiers, expand (shelf "sub") [far 1] [] "pkg/..." "." = .ok specifiers ∧
      "pkg.sub" ∈ specifiers ∧ ∃ resolved visited,
        Package.unit (shelf "sub") [far 1] "pkg.sub" "." = .ok resolved ∧
        Directory.unit (shelf "sub") "/lib/pkg/sub" = .ok visited ∧
        Path.absolute (shelf "sub").cwd resolved.directory =
          Path.absolute (shelf "sub").cwd "/lib/pkg/sub" ∧
        SameFiles resolved visited := by
  have hname : Text.isIdentifier "sub" = true := by decide
  have hshort : "sub".utf8ByteSize ≤ Disk.maxNameBytes := by decide
  have hfits : 20 + 2 * 1 ≤ Disk.maxPathBytes := by decide
  have hkept : Directory.isSkipped [] "sub" = false := by
    rw [Directory.isSkipped_of_isIdentifier hname]
    decide
  have hsub : "/lib/pkg/sub" = Path.normal (Directory.descend (package 0) ["sub"]) := by
    have hnames : ∀ n ∈ ["sub"], Node.IsName n := by decide
    have hup := Path.notMem_descend (isLocation_package 0).noParents hnames
    rw [Directory.descend, Path.normal_of_notMem hup, Path.tidy,
      Path.parse_descend_of_isName hnames, parse_package]
    rfl
  obtain ⟨specifiers, hexpand, hmem⟩ := exists_specifiers hname hshort hkept hfits
  have hsearch : ∀ place ∈ [far 1], ".." ∉ (Path.parse place).names :=
    List.forall_mem_singleton.2 (isLocation_far 1).noParents
  obtain ⟨spec, location, hfinds, -, -, -, hagrees⟩ :=
    expand_agrees (wellFormed hname) ⟨_, rfl⟩ hsearch (by decide) hexpand
  obtain ⟨rfl, rfl⟩ := eq_package hfits hfinds
  rw [display_package] at hagrees
  have hreach : InReach (package 1) ["sub"] := inReach_below hname (by decide)
  have hfilesFit := filesFit_below hname hshort
  rw [← normal_below hname, ← hsub] at hfilesFit
  exact ⟨specifiers, hexpand, hmem, hagrees ["sub"] _ (reaches_below hname hshort hkept)
    (List.forall_mem_singleton.2 hname) hsub (hasInitials_below hname hshort) hreach hfilesFit⟩

/-- A package inside the package that is too far off for its name. A walk visits it, and there are
initial files in both, but the search does not find it. -/
theorem unit_out_of_reach :
    ∃ specifiers, expand (shelf (longName 250)) [far 1948] [] "pkg/..." "." = .ok specifiers ∧
      (Specifier.below ⟨["pkg"]⟩ [longName 250]).dotted ∈ specifiers ∧
      (shelf (longName 250)).root.WellFormed ∧ ".." ∉ (Path.parse (far 1948)).names ∧
      (shelf (longName 250)).isFile "/lib/pkg/__init__.py" = true ∧
      HasInitials (shelf (longName 250)) "/lib/pkg" [longName 250] ∧
      Package.unit (shelf (longName 250)) [far 1948]
          (Specifier.below ⟨["pkg"]⟩ [longName 250]).dotted "." =
        .error (.noUnit (.packageNotFound
          (Specifier.below ⟨["pkg"]⟩ [longName 250]).dotted ".")) := by
  have hname := isIdentifier_longName 249
  have hsize := size_longName 250
  have hshort : (longName 250).utf8ByteSize ≤ Disk.maxNameBytes := by
    rw [hsize]
    decide
  have hkept : Directory.isSkipped [] (longName 250) = false := by
    have hall : ∀ name ∈ Directory.conventional, name.utf8ByteSize ≠ 250 := by decide
    have hnot : longName 250 ∉ Directory.conventional := fun hmem => hall _ hmem hsize
    rw [Directory.isSkipped_of_isIdentifier hname]
    simpa using hnot
  have hfits : 20 + 2 * 1948 ≤ Disk.maxPathBytes := by decide
  have hfar : Disk.maxPathBytes < 9 + 2 * 1948 + (longName 250).utf8ByteSize := by
    rw [hsize]
    decide
  have hinitial : (shelf (longName 250)).node "/lib/pkg/__init__.py" = .ok (.file .empty) :=
    Disk.node_of_spellsOut rfl (show Disk.SpellsOut _ ["lib", "pkg", "__init__.py"] by decide) rfl
      (Node.file_ne_link _)
  obtain ⟨specifiers, hexpand, hmem⟩ := exists_specifiers hname hshort hkept hfits
  have hinitials := hasInitials_below hname hshort
  rw [package_zero] at hinitials
  exact ⟨specifiers, hexpand, hmem, wellFormed hname, (isLocation_far 1948).noParents,
    Disk.isFile_iff.2 ⟨_, hinitial⟩, hinitials, unit_of_long hname hfits hfar⟩

end LintFront.Package
