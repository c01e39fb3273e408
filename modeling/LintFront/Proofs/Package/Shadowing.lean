import LintFront.Proofs.Directory.Covered
import LintFront.Proofs.Package.Agreement
/-!
# What a search path cannot change

The first place of every search is the base directory, in its absolute spelling. When it holds a
package or module of the outermost identifier the search ends there, before it has come to the
search path, and every further identifier is looked up in what was found. So whatever is on the
search path, all answers are the same, and so are all errors.

The user sees the base directory as it was given and the search sees its absolute spelling. The two
lead to the same directory, since the working directory is reached without links; but the absolute
spelling is the longer one, and a file that is there may be out of reach for the search.

## Main statements

`Package.node_absolute`: what lies below the base directory is found from its absolute spelling.
`Package.results_shadowed`: which base directories hide the search path.
`Package.directory_not_shadowed`: a base directory that holds the package, and a search path on
which it depends where the package is found.
-/

namespace LintFront

variable {disk : Disk}

/-! ## 1. Absolute spellings of what is there -/

namespace Disk

/-- A path without parent components that leads somewhere is led there by the components of its
absolute spelling, if the names of the working directory can be followed at all. -/
theorem follow_names_absolute {path : String} {place : List String} {entries : Entries Node}
    (hnames : ∀ name ∈ disk.here, Node.IsName name)
    (hcwd : disk.root.at? disk.here = some (.directory entries))
    (hup : ".." ∉ (Path.parse path).names)
    (hsize : ∀ name ∈ (Path.parse (Path.absolute disk.cwd path)).names,
      name.utf8ByteSize ≤ maxNameBytes) (h : disk.resolve path = .ok place) :
    follow disk.root maxLinks [] (Path.parse (Path.absolute disk.cwd path)).names =
      .ok place := by
  have hfollow := follow_names_of_resolve h
  rw [Path.parse_absolute (noParents_cwd hnames) hup] at hsize ⊢
  by_cases habsolute : Path.isAbsolute path = true
  · rw [start, if_pos habsolute] at hfollow
    rw [if_pos habsolute]
    exact hfollow
  · rw [if_neg habsolute, parse_cwd hnames] at hsize ⊢
    have hentry : ∀ name ∈ disk.here, IsEntryName name := fun name hname =>
      ⟨(hnames name hname).2.1, (hnames name hname).2.2.1,
        hsize name (List.mem_append_left _ hname)⟩
    rw [start, if_neg habsolute] at hfollow
    -- The way to the working directory goes through real directories.
    rw [follow_names_append hentry hcwd (Node.directory_ne_link _)]
    exact hfollow

/-- An absolute path that is spelled in the shortest way leads where its components lead. -/
theorem resolve_of_tidy {path : String} {place : List String}
    (habsolute : Path.isAbsolute path = true) (htidy : Path.tidy path = path)
    (hnull : ∀ name ∈ (Path.parse path).names, Path.NullFree name)
    (hsize : path.utf8ByteSize ≤ maxPathBytes)
    (hfollow : follow disk.root maxLinks [] (Path.parse path).names = .ok place)
    (hplace : (Path.parse path).names = [] →
      ∃ entries, disk.root.at? place = some (.directory entries)) :
    disk.resolve path = .ok place := by
  have htext : (Path.parse path).text = path := htidy
  have hstart : start disk.here path = [] := if_pos habsolute
  have hresolve : disk.resolve (Path.parse path).text = .ok place := by
    apply resolve_text (Path.wellSpelled_parse path) (.text hnull)
    · rwa [htext]
    · rwa [htext, hstart]
    · exact hplace
  rwa [htext] at hresolve

end Disk

namespace Package

variable {base name place : String} {names : List String}

/-- An absolute place without components is spelled by a slash or two. -/
theorem chop_of_names_eq_nil (habsolute : Path.isAbsolute place = true)
    (htidy : Path.tidy place = place) (hnil : (Path.parse place).names = []) :
    chop place = "" ∧ place.utf8ByteSize ≤ 2 := by
  have hparse : Path.parse place = ⟨1, []⟩ ∨ Path.parse place = ⟨2, []⟩ := by
    have hanchor := Path.isAbsolute_iff_anchor.1 habsolute
    have hle := (Path.wellSpelled_parse place).anchor_le
    have hone : (Path.parse place).anchor = 1 ∨ (Path.parse place).anchor = 2 := by omega
    exact hone.imp (fun h => by rw [← h, ← hnil]) fun h => by rw [← h, ← hnil]
  rw [← htidy, Path.tidy]
  rcases hparse with hparse | hparse
  · rw [hparse]
    decide
  · rw [hparse]
    decide

/-- The search spells a name in an absolute place in the shortest way when the place is spelled
so. -/
theorem inside_of_tidy (habsolute : Path.isAbsolute place = true) (htidy : Path.tidy place = place)
    (hname : Path.IsComponent name) :
    Path.tidy (inside place name) = inside place name ∧
      place.utf8ByteSize ≤ (inside place name).utf8ByteSize := by
  by_cases hnil : (Path.parse place).names = []
  · obtain ⟨hchop, hsize⟩ := chop_of_names_eq_nil habsolute htidy hnil
    have hslash : inside place name = Path.text ⟨1, [name]⟩ := by
      rw [inside, hchop, String.empty_append, Path.text_of_names (List.cons_ne_nil _ _),
        String.intercalate_singleton]
      rfl
    have hempty := (Path.endsInPiece_iff.1 hname.endsInPiece).1
    rw [Ne, ← String.utf8ByteSize_eq_zero_iff] at hempty
    constructor
    · rw [hslash, Path.tidy, Path.parse_text]
      exact ⟨Nat.le_succ 1, List.forall_mem_singleton.2 hname⟩
    · have hone : "/".utf8ByteSize = 1 := by decide
      rw [inside, hchop, String.empty_append, String.utf8ByteSize_append, hone]
      omega
  · have hends : Path.EndsInPiece place := by
      rw [← htidy]
      exact Path.endsInPiece_text (Path.wellSpelled_parse place).components hnil
    rw [inside_eq_join hends hname]
    refine ⟨Path.tidy_join htidy hnil hname, ?_⟩
    rw [Path.size_join hends hname]
    omega

/-- How the search spells a way down from an absolute place that is spelled in the shortest way. -/
theorem foldl_inside_of_tidy (habsolute : Path.isAbsolute place = true)
    (htidy : Path.tidy place = place) (hnames : ∀ name ∈ names, Path.IsComponent name) :
    let path := names.foldl inside place
    Path.isAbsolute path = true ∧ Path.tidy path = path ∧
      place.utf8ByteSize ≤ path.utf8ByteSize ∧
      (Path.parse path).names = (Path.parse place).names ++ names := by
  induction names generalizing place with
  | nil => exact ⟨habsolute, htidy, le_rfl, (List.append_nil _).symm⟩
  | cons name rest ih =>
    obtain ⟨hname, hrest⟩ := List.forall_mem_cons.1 hnames
    obtain ⟨hshort, hle⟩ := inside_of_tidy habsolute htidy hname
    have hinside : Path.isAbsolute (inside place name) = true := isAbsolute_inside habsolute name
    have hparse : (Path.parse (inside place name)).names = (Path.parse place).names ++ [name] := by
      rw [inside, names_inside, Path.parse_of_isComponent hname]
    obtain ⟨hbelow, htidy', hle', hnames'⟩ := ih hinside hshort hrest
    refine ⟨hbelow, htidy', hle.trans hle', ?_⟩
    rw [List.foldl_cons, hnames', hparse, List.append_assoc]
    rfl

/-! ## 2. The base directory -/

/-- The files by which a directory holds a package or a module of the name: the names that lead down
to each. -/
def filesOf (name : String) : List (List String) := [[name, "__init__.py"], [name ++ ".py"]]

/-- Does the base directory hold a package or module of the name, in a file that the search may ask
for? It asks for the file by the absolute spelling of the base directory. -/
def HoldsFirst (disk : Disk) (base name : String) : Prop :=
  ∃ names ∈ filesOf name, disk.isFile (Directory.descend base names) = true ∧
    Disk.Fits (names.foldl inside (Path.absolute disk.cwd base))

section

variable {entries : Entries Node} (hhere : ∀ name ∈ disk.here, Node.IsName name)
  (hcwd : disk.root.at? disk.here = some (.directory entries))
  (hbase : ".." ∉ (Path.parse base).names)

include hhere hcwd hbase

/-- What lies below the base directory is found from its absolute spelling, and the absolute
spelling names a directory, if the path is within the limits of a disk. -/
theorem node_absolute (hnames : ∀ name ∈ names, Node.IsName name) (hne : names ≠ []) {node : Node}
    (h : disk.node (Directory.descend base names) = .ok node)
    (hfits : Disk.Fits (names.foldl inside (Path.absolute disk.cwd base))) :
    disk.isDirectory (Path.absolute disk.cwd base) = true ∧
      disk.node (names.foldl inside (Path.absolute disk.cwd base)) = .ok node := by
  have hup := Disk.noParents_cwd hhere
  obtain ⟨place, hresolve, hat⟩ := Disk.node_eq_ok_iff.1 h
  obtain ⟨hnull, -⟩ := Disk.resolve_eq_ok_iff.1 hresolve
  obtain ⟨habsolute, -⟩ := Path.noParents_absolute (Disk.isAbsolute_cwd hhere) base
  obtain ⟨hbelow, hshort, hle, hparse⟩ := foldl_inside_of_tidy habsolute
    (Path.tidy_absolute disk.cwd base)
    fun name hname => Path.isComponent_of_isName (hnames name hname)
  -- The search spells the path with the components of its absolute spelling.
  have hspelled : (Path.parse (Path.absolute disk.cwd (Directory.descend base names))).names =
      (Path.parse (names.foldl inside (Path.absolute disk.cwd base))).names := by
    rw [hparse, Directory.descend, Path.parse_absolute_descend hup hbase hnames]
  have hupBelow : ".." ∉ (Path.parse (Directory.descend base names)).names :=
    Path.notMem_descend hbase hnames
  have hfollow := Disk.follow_names_absolute hhere hcwd hupBelow
    (by rw [hspelled]; exact hfits.2) hresolve
  have hnullNames : ∀ name ∈ (Path.parse (names.foldl inside (Path.absolute disk.cwd base))).names,
      Path.NullFree name := by
    rw [← hspelled]
    exact ((Disk.nullFree_cwd_of_isName hhere).absolute hnull).of_mem_parse
  rw [hspelled] at hfollow
  constructor
  · -- A path goes on from a directory, and here it goes on from the base directory.
    obtain ⟨name, rest, rfl⟩ := List.exists_cons_of_ne_nil hne
    rw [hparse] at hfollow hnullNames
    obtain ⟨middle, links, hmiddle, hrest⟩ := Disk.exists_follow_of_append hfollow
    obtain ⟨listed, hlisted⟩ := Disk.exists_directory_of_follow_cons hrest
    have hbase' := Disk.resolve_of_tidy habsolute (Path.tidy_absolute disk.cwd base)
      (fun name hname => hnullNames name (List.mem_append_left _ hname)) (hle.trans hfits.1)
      hmiddle fun _ => ⟨listed, hlisted⟩
    exact Disk.isDirectory_iff.2 ⟨listed, Disk.node_eq_ok_iff.2 ⟨middle, hbase', hlisted⟩⟩
  · have hpath := Disk.resolve_of_tidy hbelow hshort hnullNames hfits.1 hfollow fun hnil => by
      rw [hparse] at hnil
      exact absurd (List.append_eq_nil_iff.1 hnil).2 hne
    exact Disk.node_eq_ok_iff.2 ⟨place, hpath, hat⟩

/-- A base directory that holds a package or module settles the search for it. -/
theorem HoldsFirst.settles (hname : Text.isIdentifier name = true) (h : HoldsFirst disk base name) :
    disk.isDirectory (Path.absolute disk.cwd base) = true ∧
      Settles disk name (Path.absolute disk.cwd base) := by
  obtain ⟨names, hmem, hfile, hfits⟩ := h
  have hentry := Text.isName_of_isIdentifier hname
  -- Either way the file is one that the search asks for in a place.
  have hasked : (∀ n ∈ names, Node.IsName n) ∧ names ≠ [] ∧
      ∀ place, disk.isFile (names.foldl inside place) = true →
        disk.isFile (inside (inside place name) ("__init__" ++ ".py")) = true ∨
          disk.isFile (inside place (name ++ ".py")) = true := by
    rw [filesOf, List.mem_pair] at hmem
    rcases hmem with rfl | rfl
    · exact ⟨List.forall_mem_cons.2 ⟨hentry, by decide⟩, List.cons_ne_nil _ _, fun _ => .inl⟩
    · exact ⟨List.forall_mem_singleton.2 (isName_moduleFile hentry ".py" (by decide)),
        List.cons_ne_nil _ _, fun _ => .inr⟩
  obtain ⟨hnames, hne, hheld⟩ := hasked
  obtain ⟨content, hnode⟩ := Disk.isFile_iff.1 hfile
  obtain ⟨hdirectory, hfound⟩ := node_absolute hhere hcwd hbase hnames hne hnode hfits
  obtain ⟨habsolute, -⟩ := Path.noParents_absolute (Disk.isAbsolute_cwd hhere) base
  refine ⟨hdirectory, (settles_iff_of_head (Path.isAbsolute_iff.1 habsolute) hdirectory).2 ?_⟩
  exact ⟨".py", by decide, hheld _ (Disk.isFile_iff.2 ⟨content, hfound⟩)⟩

end

/-! ## 3. A search that ends in the base directory -/

/-- Only the outermost identifier is looked up on the search path, so when the base directory
settles it the search is the same on every path: it goes on from what the base directory holds. -/
theorem locate_of_settles (hhere : ∀ name ∈ disk.here, Node.IsName name) {spec : Specifier}
    {rest : List String} (hspec : spec.segments = name :: rest)
    (hdirectory : disk.isDirectory (Path.absolute disk.cwd base) = true)
    (h : Settles disk name (Path.absolute disk.cwd base)) :
    ∃ found : Found, found.LiesIn (Path.absolute disk.cwd base) name ∧
      ∀ search, locate disk search base spec =
        locateFrom disk spec.dotted base [name] found rest := by
  have habsolute := Path.isAbsolute_iff.1
    (Path.noParents_absolute (Disk.isAbsolute_cwd hhere) base).1
  have hfinder := finder?_of_head habsolute hdirectory
  obtain ⟨finder, hfinder', hholds⟩ := h
  obtain rfl := Option.some.inj (Except.ok.inj (hfinder.symm.trans hfinder'))
  obtain ⟨found, hlies, hfound⟩ := lookUp_cons_of_settles hfinder hholds
  rw [Finder.place_ofDirectory, anchored_of_head habsolute] at hlies
  refine ⟨found, hlies, fun search => ?_⟩
  have hstep : step disk [] name
      (Found.portions (Path.absolute disk.cwd base :: search)).locations = .ok (some found) := by
    rw [Found.locations, step, hfound]
    cases found with
    | portions locations => exact absurd hlies id
    | package location => rfl
    | module origin => rfl
  rw [locate, hspec]
  exact locateFrom_cons_of_step hstep

/-- A base directory that holds the outermost package or module of a specifier hides the search path
from it: the search goes on from what the base directory holds, and what the specifier is resolved
to, the directory of its package and what it stands for with the marker are the same on every search
path, and so are the reasons why there is none of these. -/
theorem results_shadowed (hroot : disk.root.WellFormed)
    (hcwd : ∃ entries, disk.root.at? disk.here = some (.directory entries))
    (hbase : ".." ∉ (Path.parse base).names) {text : String} {spec : Specifier}
    (hparse : Specifier.parse? (stripMarker text) = some spec) {rest : List String}
    (hsegments : spec.segments = name :: rest) (hfirst : HoldsFirst disk base name)
    (search search' excludes : List String) :
    (∃ found : Found, found.LiesIn (Path.absolute disk.cwd base) name ∧
      locate disk search base spec = locateFrom disk spec.dotted base [name] found rest) ∧
      unit disk search text base = unit disk search' text base ∧
      directory disk search text base = directory disk search' text base ∧
      expand disk search excludes text base = expand disk search' excludes text base := by
  obtain ⟨entries, hat⟩ := hcwd
  have hhere := hroot.isName_of_at? hat
  have hspec := Specifier.wellSpelled_of_parse? hparse
  have hname := hspec.identifiers name (hsegments ▸ List.mem_cons_self)
  obtain ⟨hdirectory, hsettles⟩ := hfirst.settles hhere hat hbase hname
  obtain ⟨found, hlies, hlocate⟩ := locate_of_settles hhere hsegments hdirectory hsettles
  refine ⟨⟨found, hlies, hlocate search⟩, ?_⟩
  -- With the marker only the expansion looks for anything, and without it only the other two do.
  by_cases hmarker : hasMarker text = true
  · have hnone := Specifier.parse?_eq_none_of_hasMarker hmarker
    refine ⟨?_, ?_, ?_⟩
    · rw [unit_of_parse?_eq_none hnone, unit_of_parse?_eq_none hnone]
    · rw [directory, directory, Specifier.parse, hnone]
      rfl
    · rw [expand_of_parse? hmarker hparse, expand_of_parse? hmarker hparse, hlocate, hlocate]
  · have hself : stripMarker text = text := if_neg hmarker
    rw [hself] at hparse
    refine ⟨?_, ?_, ?_⟩
    · rw [unit_of_parse? hparse, unit_of_parse? hparse, hlocate, hlocate]
    · rw [directory, directory, Specifier.parse, hparse]
      dsimp only [bind, Except.bind]
      rw [hlocate, hlocate]
    · rw [expand, expand, if_neg hmarker, if_neg hmarker]

/-- A directory with a package, and another directory with a package of the same name that holds
more. -/
def rivals : Disk where
  root := .directory [("home", .directory [("pkg", .directory [("__init__.py", .file .empty)])]),
    ("lib", .directory [("pkg", .directory
      [("__init__.py", .file .empty), ("sub", .directory [("__init__.py", .file .empty)])])])]
  here := []

theorem holdsFirst_rivals : HoldsFirst rivals "home" "pkg" := by
  have hspelled : Directory.descend "home" ["pkg", "__init__.py"] = "home/pkg/__init__.py" := by
    decide +kernel
  have hasked : ["pkg", "__init__.py"].foldl inside (Path.absolute rivals.cwd "home") =
      "/home/pkg/__init__.py" := by decide +kernel
  have hnode : rivals.node "home/pkg/__init__.py" = .ok (.file .empty) :=
    Disk.node_of_spellsOut rfl
      (show Disk.SpellsOut _ ["home", "pkg", "__init__.py"] by decide) rfl (Node.file_ne_link _)
  refine ⟨_, List.mem_cons_self, ?_, ?_⟩
  · rw [hspelled]
    exact Disk.isFile_iff.2 ⟨_, hnode⟩
  · rw [hasked]
    exact ⟨by decide, by decide⟩

/-- The other package holds what is looked for, and is not asked. -/
theorem shadowed_rivals :
    (∃ found : Found, found.LiesIn "/home" "pkg" ∧ locate rivals ["lib"] "home" ⟨["pkg", "sub"]⟩ =
      locateFrom rivals "pkg.sub" "home" ["pkg"] found ["sub"]) ∧
    unit rivals ["lib"] "pkg.sub" "home" = unit rivals [] "pkg.sub" "home" ∧
    directory rivals ["lib"] "pkg.sub" "home" = directory rivals [] "pkg.sub" "home" ∧
    expand rivals ["lib"] [] "pkg/..." "home" = expand rivals [] [] "pkg/..." "home" := by
  have hroot : rivals.root.WellFormed := by decide
  have hcwd : ∃ entries, rivals.root.at? rivals.here = some (.directory entries) := ⟨_, rfl⟩
  have hbase : ".." ∉ (Path.parse "home").names := by decide
  have hsub : Specifier.parse? (stripMarker "pkg.sub") = some ⟨["pkg", "sub"]⟩ := by decide
  have hall : Specifier.parse? (stripMarker "pkg/...") = some ⟨["pkg"]⟩ := by decide
  have habsolute : Path.absolute rivals.cwd "home" = "/home" := by decide +kernel
  have hdotted : Specifier.dotted ⟨["pkg", "sub"]⟩ = "pkg.sub" := by decide
  obtain ⟨hfound, hunit, hdirectory, -⟩ :=
    results_shadowed hroot hcwd hbase hsub rfl holdsFirst_rivals ["lib"] [] []
  obtain ⟨-, -, -, hexpand⟩ :=
    results_shadowed hroot hcwd hbase hall rfl holdsFirst_rivals ["lib"] [] []
  rw [habsolute, hdotted] at hfound
  exact ⟨hfound, hunit, hdirectory, hexpand⟩

/-! ## 4. A base directory that is too far down

A path is limited as it is spelled, and the base directory is spelled in two ways. A link back to
the working directory makes its spelling as long as is wanted: by the relative one the package is
just within the limit, and by the absolute one, which begins with the names of the working
directory, it is not. The facts are stated for any number of turns, as far as they hold. -/

open shelf (longName)

/-- A package in the working directory, another of the same name in a directory there, and a link
with a long name back to the working directory. -/
def roundabout : Disk where
  root := .directory [("workspace-of-packages", .directory
    [("pkg", .directory [("__init__.py", .file .empty)]),
      ("lib", .directory [("pkg", .directory [("__init__.py", .file .empty)])]),
      (longName 254, .link ".")])]
  here := ["workspace-of-packages"]

namespace roundabout

/-- The working directory, by the link and so many times by the link again. -/
def around : Nat → String
  | 0 => longName 254
  | n + 1 => Path.join (around n) (longName 254)

theorem isName_longName : Node.IsName (longName 254) :=
  Text.isName_of_isIdentifier (shelf.isIdentifier_longName 253)

theorem isComponent_longName : Path.IsComponent (longName 254) :=
  Path.isComponent_of_isName isName_longName

theorem endsInPiece_around (n : Nat) : Path.EndsInPiece (around n) := by
  cases n with
  | zero => exact isComponent_longName.endsInPiece
  | succ n => exact isComponent_longName.endsInPiece.join _

theorem size_around (n : Nat) : (around n).utf8ByteSize = 254 + 255 * n := by
  induction n with
  | zero => exact shelf.size_longName 254
  | succ n ih =>
    rw [around, Path.size_join (endsInPiece_around n) isComponent_longName, ih,
      shelf.size_longName]
    omega

theorem parse_around (n : Nat) :
    Path.parse (around n) = ⟨0, List.replicate (n + 1) (longName 254)⟩ := by
  induction n with
  | zero => exact Path.parse_of_isComponent isComponent_longName
  | succ n ih =>
    rw [around, Path.parse_join _ isComponent_longName, ih]
    exact congrArg (Path.mk 0) List.replicate_succ'.symm

theorem tidy_around (n : Nat) : Path.tidy (around n) = around n := by
  induction n with
  | zero =>
    have htext := Path.text_of_names (p := ⟨0, [longName 254]⟩) (List.cons_ne_nil _ _)
    rw [around, Path.tidy, Path.parse_of_isComponent isComponent_longName, htext,
      String.intercalate_singleton]
    exact String.empty_append
  | succ n ih =>
    have hne : (Path.parse (around n)).names ≠ [] := by
      rw [parse_around]
      exact List.cons_ne_nil _ _
    exact Path.tidy_join ih hne isComponent_longName

theorem noParents_around (n : Nat) : ".." ∉ (Path.parse (around n)).names := by
  rw [parse_around]
  intro hmem
  exact isName_longName.2.2.1 (List.eq_of_mem_replicate hmem).symm

theorem nullFree_around (n : Nat) : Path.NullFree (around n) := by
  rw [← tidy_around, Path.tidy, parse_around]
  apply Path.NullFree.text
  intro name hname
  rw [List.eq_of_mem_replicate hname]
  exact Path.nullFree_of_isName isName_longName

theorem not_isAbsolute_around (n : Nat) : ¬Path.isAbsolute (around n) = true := by
  rw [Path.isAbsolute_iff_anchor, parse_around]
  exact not_not.2 rfl

theorem longName_ne {s : String} (h : s.utf8ByteSize ≠ 254) : s ≠ longName 254 := by
  rintro rfl
  exact h (shelf.size_longName 254)

theorem shapeAt_link :
    roundabout.root.shapeAt (roundabout.here ++ [longName 254]) = some (.link ".") := by
  have hpkg : "pkg" ≠ longName 254 := longName_ne (by decide)
  have hlib : "lib" ≠ longName 254 := longName_ne (by decide)
  simp [roundabout, Node.shapeAt, Node.at?, Node.entries, Entries.find?, hpkg, hlib, Node.shape]

/-- The link leads nowhere else, but it is one link more that is followed. -/
theorem follow_longName (links : Nat) (rest : List String) :
    Disk.follow roundabout.root (links + 1) roundabout.here (longName 254 :: rest) =
      Disk.follow roundabout.root links roundabout.here rest := by
  have hdot : Disk.steps "." = ["."] := by decide
  have hstart : Disk.start roundabout.here "." = roundabout.here := by decide +kernel
  have hshape : roundabout.root.shapeAt roundabout.here = some .directory := rfl
  have hstride : Disk.stride roundabout.root (links + 1) roundabout.here (longName 254) =
      .ok ⟨links, roundabout.here, ["."]⟩ := by
    have hsize : ¬Disk.maxNameBytes < (longName 254).utf8ByteSize := by
      rw [shelf.size_longName]
      decide
    rw [Disk.stride, hshape, shapeAt_link]
    dsimp only
    rw [if_neg isName_longName.2.1, if_neg isName_longName.2.2.1, if_neg hsize, hdot, hstart]
  rw [Disk.follow_cons, hstride]
  show Disk.follow roundabout.root links roundabout.here ("." :: rest) = _
  rw [Disk.follow_cons, Disk.stride, hshape]
  rfl

/-- Going round leads back, as long as there are links to be followed. -/
theorem follow_around (n links : Nat) (rest : List String) :
    Disk.follow roundabout.root (links + (n + 1)) roundabout.here (Disk.steps (around n) ++ rest) =
      Disk.follow roundabout.root links roundabout.here rest := by
  induction n generalizing links rest with
  | zero =>
    have hsteps : Disk.steps (around 0) = [longName 254] := by
      rw [Disk.steps_of_endsInPiece (endsInPiece_around 0), around,
        Path.pieces_of_notMem isComponent_longName.2]
      exact List.filter_cons_of_pos (by simpa using isName_longName.1)
    rw [hsteps]
    exact follow_longName links rest
  | succ n ih =>
    have hmore : links + (n + 1 + 1) = links + 1 + (n + 1) := by omega
    rw [around, Disk.steps_join (endsInPiece_around n) isComponent_longName, List.append_assoc,
      hmore, ih]
    exact follow_longName links rest

theorem isFile_around {n : Nat} (hn : n + 1 ≤ Disk.maxLinks)
    (hfits : 270 + 255 * n ≤ Disk.maxPathBytes) :
    roundabout.isFile (Directory.descend (around n) ["pkg", "__init__.py"]) = true := by
  have hnames : ∀ name ∈ ["pkg", "__init__.py"], Node.IsName name := by decide
  have hpkg : Path.IsComponent "pkg" := Path.isComponent_of_isName (by decide)
  have hinit : Path.IsComponent "__init__.py" := Path.isComponent_of_isName (by decide)
  have hsize : (["pkg", "__init__.py"].foldl Path.join (around n)).utf8ByteSize ≤
      Disk.maxPathBytes := by
    have h1 : "pkg".utf8ByteSize = 3 := by decide
    have h2 : "__init__.py".utf8ByteSize = 11 := by decide
    rw [List.foldl_cons, List.foldl_cons, List.foldl_nil,
      Path.size_join (hpkg.endsInPiece.join _) hinit, Path.size_join (endsInPiece_around n) hpkg,
      size_around, h1, h2]
    omega
  have hstart : Disk.start roundabout.here (around n) = roundabout.here :=
    if_neg (not_isAbsolute_around n)
  -- Every turn uses one link up, and so many links may be followed.
  obtain ⟨links, hlinks⟩ := Nat.exists_eq_add_of_le' hn
  have hresolve : roundabout.resolve (Directory.descend (around n) ["pkg", "__init__.py"]) =
      .ok ["workspace-of-packages", "pkg", "__init__.py"] := by
    rw [Directory.descend,
      Disk.resolve_descend (endsInPiece_around n) (nullFree_around n) hnames hsize, hstart, hlinks,
      follow_around]
    exact Disk.follow_of_at? (by decide)
      (show roundabout.root.at? (["workspace-of-packages"] ++ _) = some (.file .empty) from rfl)
      (Node.file_ne_link _) _
  exact Disk.isFile_iff.2 ⟨.empty, Disk.node_eq_ok_iff.2 ⟨_, hresolve, rfl⟩⟩

theorem isName_here : ∀ name ∈ roundabout.here, Node.IsName name := by decide

/-- The working directory comes before the way round in the absolute spelling. -/
theorem size_absolute (n : Nat) :
    (Path.absolute roundabout.cwd (around n)).utf8ByteSize = 277 + 255 * n := by
  have hnames : (Path.parse (around n)).names ≠ [] := by
    rw [parse_around]
    exact List.cons_ne_nil _ _
  have hslash : "/".utf8ByteSize = 1 := by decide
  have hone : (Path.slashes 1).utf8ByteSize = 1 := by decide
  have hhere : ("/".intercalate roundabout.here).utf8ByteSize = 21 := by decide
  -- The way round is in its shortest spelling, so its components spell it again.
  have haround : "/".intercalate (Path.parse (around n)).names = around n := by
    have htext := Path.text_of_names hnames
    rw [show (Path.parse (around n)).text = around n from tidy_around n, parse_around] at htext
    rw [parse_around, htext]
    exact String.empty_append.symm
  have hparse : Path.parse (Path.absolute roundabout.cwd (around n)) =
      ⟨1, roundabout.here ++ (Path.parse (around n)).names⟩ := by
    rw [Path.parse_absolute (Disk.noParents_cwd isName_here) (noParents_around n),
      if_neg (not_isAbsolute_around n), Disk.parse_cwd isName_here]
  have hne : roundabout.here ≠ [] := List.cons_ne_nil _ _
  rw [← Path.tidy_absolute, Path.tidy, hparse,
    Path.text_of_names (List.append_ne_nil_of_right_ne_nil _ hnames),
    String.intercalate_append_of_ne_nil hne hnames, haround]
  simp only [String.utf8ByteSize_append, hslash, hone, hhere, size_around]
  omega

/-- However many turns are taken, the way round ends where it began. -/
theorem eq_here_of_follow {n links : Nat} {home : List String}
    (h : Disk.follow roundabout.root links roundabout.here (List.replicate n (longName 254)) =
      .ok home) : home = roundabout.here := by
  induction n generalizing links with
  | zero =>
    rw [List.replicate_zero, Disk.follow_nil] at h
    exact (Except.ok.inj h).symm
  | succ n ih =>
    rw [List.replicate_succ] at h
    cases links with
    | zero =>
      -- A turn is not begun when no link may be followed any more.
      have hsize : ¬Disk.maxNameBytes < (longName 254).utf8ByteSize := by
        rw [shelf.size_longName]
        decide
      have hshape : roundabout.root.shapeAt roundabout.here = some .directory := rfl
      rw [Disk.follow_cons, Disk.stride, hshape, shapeAt_link] at h
      dsimp only at h
      rw [if_neg isName_longName.2.1, if_neg isName_longName.2.2.1, if_neg hsize] at h
      cases h
    | succ links =>
      rw [follow_longName] at h
      exact ih h

/-- The way round leads through directories only, and so into no archive. -/
theorem archive?_around (n : Nat) :
    roundabout.archive? (Path.absolute roundabout.cwd (around n)) = none := by
  rw [Option.eq_none_iff_forall_ne_some]
  intro archive harchive
  obtain ⟨⟨rest, file, content, hnode, hsame, hnames⟩, -⟩ := Disk.isAtFile_of_archive? harchive
  obtain ⟨home, hresolve, hat⟩ := Disk.node_eq_ok_iff.1 hnode
  have habsolute := (Path.noParents_absolute (Disk.isAbsolute_cwd isName_here) (around n)).1
  have hfollow := Disk.follow_names_of_resolve hresolve
  rw [Disk.start, if_pos (hsame ▸ habsolute)] at hfollow
  rw [Path.parse_absolute (Disk.noParents_cwd isName_here) (noParents_around n),
    if_neg (not_isAbsolute_around n), Disk.parse_cwd isName_here, parse_around] at hnames
  rcases List.append_eq_append_iff.1 hnames with ⟨turns, hfile, hturns⟩ | ⟨after, hhere, -⟩
  · -- The path has come to the working directory, and takes turns from there.
    rw [hfile] at hfollow
    have hback := Disk.follow_here_of_follow isName_here rfl hfollow
    obtain ⟨-, hturns, -⟩ := List.append_eq_replicate_iff.1 hturns.symm
    rw [hturns] at hback
    rw [eq_here_of_follow hback] at hat
    cases hat
  · exact Disk.names_append_ne_here isName_here rfl hfollow hat after hhere.symm

/-- A base directory whose absolute spelling is too long is passed over. -/
theorem lookUp_around {n : Nat} (hlong : Disk.maxPathBytes < 277 + 255 * n)
    (rest : List String) :
    lookUp roundabout "pkg" [] (Path.absolute roundabout.cwd (around n) :: rest) =
      lookUp roundabout "pkg" [] rest := by
  have hcwd := Disk.nullFree_cwd_of_isName isName_here
  have hhead := Path.isAbsolute_iff.1
    (Path.noParents_absolute (Disk.isAbsolute_cwd isName_here) (around n)).1
  have hnot : ¬roundabout.isDirectory (Path.absolute roundabout.cwd (around n)) = true := by
    rw [Disk.isDirectory_iff]
    rintro ⟨entries, hnode⟩
    exact Disk.node_of_long (by rwa [size_absolute]) _ hnode
  have hfinder : finder? roundabout (Path.absolute roundabout.cwd (around n)) = .ok none := by
    rw [finder?, entry_of_head hhead, archive?_around]
    dsimp only
    rw [if_neg (hcwd.absolute (nullFree_around n)), if_neg hnot]
  rw [lookUp, probeAt, hfinder]
  rfl

/-- The other package is found on the search path. -/
theorem step_lib :
    step roundabout [] "pkg" ["/workspace-of-packages/lib"] =
      .ok (some (.package "/workspace-of-packages/lib/pkg")) := by
  have hlocation : Path.IsLocation "/workspace-of-packages/lib" :=
    ⟨Path.isAbsolute_iff.2 (by decide), by decide, by decide, Path.endsInPiece_iff.2 (by decide)⟩
  have hpkg : Path.join "/workspace-of-packages/lib" "pkg" = "/workspace-of-packages/lib/pkg" := by
    decide +kernel
  have hinit : Path.join "/workspace-of-packages/lib/pkg" "__init__.py" =
      "/workspace-of-packages/lib/pkg/__init__.py" := by decide +kernel
  have hfollow : Disk.follow roundabout.root Disk.maxLinks []
      ["workspace-of-packages", "lib", "pkg", "__init__.py"] = .ok _ :=
    Disk.follow_of_at? (by decide)
      (show roundabout.root.at? ([] ++ _) = some (.file .empty) from rfl) (Node.file_ne_link _) _
  have hresolve : roundabout.resolve "/workspace-of-packages/lib/pkg/__init__.py" = .ok _ :=
    Disk.resolve_of_tidy (Path.isAbsolute_iff.2 (by decide)) (by decide) (by decide) (by decide)
      hfollow fun hnil => absurd hnil (by decide)
  have hfile : roundabout.isFile "/workspace-of-packages/lib/pkg/__init__.py" = true :=
    Disk.isFile_iff.2 ⟨.empty, Disk.node_eq_ok_iff.2 ⟨_, hresolve, rfl⟩⟩
  rw [← hinit, ← hpkg] at hfile
  have hfound := step_of_initial hlocation (by decide) hfile [] []
  rwa [hpkg] at hfound

theorem wellFormed : roundabout.root.WellFormed := by
  have hpkg : "pkg" ≠ longName 254 := longName_ne (by decide)
  have hlib : "lib" ≠ longName 254 := longName_ne (by decide)
  rw [← Node.isWellFormed_iff]
  simp [roundabout, Node.isWellFormed, Node.areWellFormed, isName_longName, hpkg, hlib]
  decide

/-- Without a search path the package is not found. -/
theorem directory_nil {n : Nat} (hlong : Disk.maxPathBytes < 277 + 255 * n) :
    directory roundabout [] "pkg" (around n) =
      .error (.noUnit (.packageNotFound "pkg" (around n))) := by
  have hdotted : Specifier.dotted ⟨["pkg"]⟩ = "pkg" := String.intercalate_singleton
  have hparse : Specifier.parse? "pkg" = some ⟨["pkg"]⟩ := by decide
  have hstep : step roundabout [] "pkg"
      (Found.portions [Path.absolute roundabout.cwd (around n)]).locations = .ok none := by
    rw [Found.locations, step, lookUp_around hlong]
    rfl
  have hlocate : locate roundabout [] (around n) ⟨["pkg"]⟩ =
      .error (.noUnit (.packageNotFound "pkg" (around n))) := by
    rw [locate, hdotted]
    exact locateFrom_cons_of_none (List.cons_ne_nil _ _) hstep
  rw [directory, Specifier.parse, hparse]
  dsimp only [bind, Except.bind]
  rw [hlocate]

/-- With the other package on the search path that one is found. -/
theorem directory_lib {n : Nat} (hlong : Disk.maxPathBytes < 277 + 255 * n) :
    directory roundabout ["/workspace-of-packages/lib"] "pkg" (around n) = .ok "lib/pkg" := by
  have hparse : Specifier.parse? "pkg" = some ⟨["pkg"]⟩ := by decide
  have hshown : roundabout.display "/workspace-of-packages/lib/pkg" = "lib/pkg" := by
    decide +kernel
  have hstep : step roundabout [] "pkg" (Found.portions
      [Path.absolute roundabout.cwd (around n), "/workspace-of-packages/lib"]).locations =
        .ok (some (.package "/workspace-of-packages/lib/pkg")) := by
    have hfound := step_lib
    rw [step] at hfound
    rw [Found.locations, step, lookUp_around hlong]
    exact hfound
  have hlocate : locate roundabout ["/workspace-of-packages/lib"] (around n) ⟨["pkg"]⟩ =
      .ok (.package "/workspace-of-packages/lib/pkg") := by
    rw [locate]
    exact locateFrom_cons_of_step hstep
  rw [directory, Specifier.parse, hparse]
  dsimp only [bind, Except.bind]
  rw [hlocate]
  dsimp only [Found.locations]
  rw [hshown]

end roundabout

open roundabout (around)

/-- A base directory that holds the package, by a path that is as long as a path may be. The search
asks for the package by a path that is longer, and finds what is on the search path instead. -/
theorem directory_not_shadowed :
    roundabout.root.WellFormed ∧ ".." ∉ (Path.parse (around 15)).names ∧
      roundabout.isFile (Directory.descend (around 15) ["pkg", "__init__.py"]) = true ∧
      directory roundabout [] "pkg" (around 15) =
        .error (.noUnit (.packageNotFound "pkg" (around 15))) ∧
      directory roundabout ["/workspace-of-packages/lib"] "pkg" (around 15) = .ok "lib/pkg" := by
  have hlong : Disk.maxPathBytes < 277 + 255 * 15 := by decide
  exact ⟨roundabout.wellFormed, roundabout.noParents_around 15,
    roundabout.isFile_around (by decide) (by decide), roundabout.directory_nil hlong,
    roundabout.directory_lib hlong⟩

end Package

end LintFront
