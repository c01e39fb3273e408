import LintFront.Proofs.Directory.Files
import LintFront.Proofs.Package.Places
import LintFront.Proofs.Package.Resolution
/-!
# What lies below a package

A directory below a package is named by the identifiers that lead down to it, and its files are
those that can be seen from it. For the first it matters only which names a walk has gone along, and
different names make different specifiers. The second is a question of spelling: a directory is
listed by the path under which it is shown, which may be the whole one or one that begins in the
working directory. Both list the same files, unless the whole path is too long for them.

## Main statements

`Package.specifiers_of_expand`: the specifiers of what a walk below a package visits.
`Package.sameFiles_of_isPlace`: a directory forms the same unit from where it was found and from
where it was visited.
-/

namespace LintFront

variable {disk : Disk} {excludes : List String}

/-! ## 1. Specifiers below a package -/

/-- The specifier that goes on from another one. -/
def Specifier.below (spec : Specifier) (names : List String) : Specifier := ⟨spec.segments ++ names⟩

namespace Specifier

variable {spec : Specifier} {names names' : List String}

theorem WellSpelled.below (h : spec.WellSpelled)
    (hnames : ∀ name ∈ names, Text.isIdentifier name = true) : (spec.below names).WellSpelled where
  nonempty := List.append_ne_nil_of_left_ne_nil h.nonempty names
  identifiers := by
    intro s hs
    rcases List.mem_append.1 hs with hs | hs
    · exact h.identifiers s hs
    · exact hnames s hs

/-- The spelling of a specifier below another one tells the identifiers that were added. -/
theorem dotted_below_inj (h : spec.WellSpelled)
    (hnames : ∀ name ∈ names, Text.isIdentifier name = true)
    (hnames' : ∀ name ∈ names', Text.isIdentifier name = true)
    (heq : (spec.below names).dotted = (spec.below names').dotted) : names = names' := by
  have hparse := parse?_dotted (h.below hnames)
  rw [heq, parse?_dotted (h.below hnames')] at hparse
  exact (List.append_cancel_left (congrArg segments (Option.some.inj hparse))).symm

/-- The spelling of a specifier is the normal spelling of itself. -/
theorem dotted_parse (h : spec.WellSpelled) :
    (parse spec.dotted).map dotted = .ok spec.dotted := by
  rw [parse, parse?_dotted h]
  rfl

end Specifier

namespace Package

variable {spec : Specifier} {location : String}

/-- The specifier of what lies below a package under these names, if all of them are identifiers. -/
def specifierOf? (spec : Specifier) (names : List String) : Option String :=
  if names.all Text.isIdentifier then some (spec.below names).dotted else none

theorem specifierOf?_eq_some_iff {names : List String} {s : String} :
    specifierOf? spec names = some s ↔
      (∀ name ∈ names, Text.isIdentifier name = true) ∧ s = (spec.below names).dotted := by
  rw [specifierOf?, ← List.all_eq_true]
  by_cases hall : names.all Text.isIdentifier = true
  · simp [hall, eq_comm]
  · simp [hall]

/-- A directory below a package has the specifier of the names that lead to it. -/
theorem specifierBelow?_descend {root : String} {names : List String}
    (hhere : ∀ name ∈ disk.here, Node.IsName name) (hup : ".." ∉ (Path.parse root).names)
    (hnames : ∀ name ∈ names, Node.IsName name) :
    specifierBelow? disk spec root (Path.normal (Directory.descend root names)) =
      specifierOf? spec names := by
  have hrelative : Path.relativeNames disk.cwd
      (Path.normal (Directory.descend root names)) root = names :=
    Path.relativeNames_descend (Disk.noParents_cwd hhere) hup hnames
  rw [specifierBelow?, hrelative]
  rfl

/-- The specifiers of the directories that a walk below a package visits: they are different, and
each is made of the identifiers that lead down to one of them. -/
theorem specifiers_of_expand (hroot : disk.root.WellFormed)
    (hhere : ∀ name ∈ disk.here, Node.IsName name) (hspec : spec.WellSpelled) {root : String}
    (hup : ".." ∉ (Path.parse root).names) {paths : List String}
    (h : Directory.expand disk excludes root = .ok paths) :
    (paths.filterMap (specifierBelow? disk spec root)).Nodup ∧
      ∀ s, s ∈ paths.filterMap (specifierBelow? disk spec root) ↔
        ∃ names, Directory.Reaches disk excludes root names ∧
          (∀ name ∈ names, Text.isIdentifier name = true) ∧ s = (spec.below names).dotted := by
  obtain ⟨branches, hnodup, hmem, rfl⟩ := Directory.exists_branches_of_expand hroot h
  have hbelow : ∀ names ∈ branches, (specifierBelow? disk spec root ∘ fun names =>
      Path.normal (Directory.descend root names)) names = specifierOf? spec names := by
    intro names hnames
    rw [Function.comp_apply]
    exact specifierBelow?_descend hhere hup (((hmem names).1 hnames).isName hroot)
  rw [List.filterMap_map, List.filterMap_congr hbelow]
  constructor
  · -- Different branches are different specifiers, and the walk goes along no branch twice.
    rw [List.Nodup, List.pairwise_filterMap]
    refine hnodup.imp fun {a b} hne s hs t ht heq => hne ?_
    obtain ⟨hnames, rfl⟩ := specifierOf?_eq_some_iff.1 hs
    obtain ⟨hnames', rfl⟩ := specifierOf?_eq_some_iff.1 ht
    exact Specifier.dotted_below_inj hspec hnames hnames' heq
  · intro s
    rw [List.mem_filterMap]
    exact exists_congr fun names => and_congr (hmem names) specifierOf?_eq_some_iff

/-! ## 2. The unit of a place as it is shown -/

section

variable (hhere : ∀ name ∈ disk.here, Node.IsName name)
  (hcwd : ∃ entries, disk.root.at? disk.here = some (.directory entries))

include hhere hcwd

/-- A place that is found can be gone on from as it is shown. -/
theorem IsPlace.sameWay_display (h : IsPlace disk location) :
    disk.SameWay location (disk.display location) := by
  obtain ⟨here, hat⟩ := hcwd
  obtain ⟨home, hresolve⟩ := h.exists_resolve
  exact Disk.sameWay_display hhere h.toIsLocation hat hresolve

/-- A place that is found lies where it lies as it is shown. -/
theorem IsPlace.resolve_display (h : IsPlace disk location) :
    disk.resolve (disk.display location) = disk.resolve location := by
  obtain ⟨here, hat⟩ := hcwd
  obtain ⟨home, hresolve⟩ := h.exists_resolve
  rw [Disk.resolve_display hhere h.toIsLocation hat hresolve, hresolve]

/-- A place that is found has the same entries as it is shown. -/
theorem IsPlace.list_display (h : IsPlace disk location) :
    disk.list (disk.display location) = disk.list location := by
  rw [Disk.list, Disk.node, h.resolve_display hhere hcwd, Disk.list, Disk.node]

end

end Package

/-- Which files of a directory are eligible hangs on what they are alone. -/
theorem Directory.eligible_congr {a b : String} {entries : Entries Node}
    (h : ∀ name ∈ entries.names, (role? name).isSome = true →
      disk.isFile (Path.join a name) = disk.isFile (Path.join b name)) :
    eligible disk a entries = eligible disk b entries := by
  have hfilter : ∀ name ∈ entries.names,
      (!name.startsWith "." && disk.isFile (Path.join a name) && (role? name).isSome) =
        (!name.startsWith "." && disk.isFile (Path.join b name) && (role? name).isSome) := by
    intro name hname
    cases hrole : (role? name).isSome with
    | true => rw [h name hname hrole]
    | false => rw [Bool.and_false, Bool.and_false]
  rw [eligible, eligible, List.filter_congr hfilter]

namespace Package

/-- Do two units hold the same files, whatever they are called? -/
structure SameFiles (unit unit' : SourceUnit) : Prop where
  sources : unit.sources = unit'.sources
  stubs : unit.stubs = unit'.stubs
  tests : unit.tests = unit'.tests

/-- Are the paths of the source files of a directory within the limits of a disk? -/
def FilesFit (disk : Disk) (directory : String) : Prop :=
  ∀ entries, disk.list directory = .ok entries → ∀ name ∈ entries.names,
    (role? name).isSome = true → (Path.join directory name).utf8ByteSize ≤ Disk.maxPathBytes

theorem IsPlace.list_tidy (h : IsPlace disk location) :
    disk.list (Path.tidy location) = disk.list location := by
  obtain ⟨entries, hlist⟩ := h.list
  obtain ⟨place, hresolve, hat⟩ := Disk.node_eq_ok_iff.1 (Disk.list_eq_ok_iff.1 hlist)
  rw [hlist, Disk.list_eq_ok_iff]
  exact Disk.node_eq_ok_iff.2 ⟨place, Disk.resolve_tidy hresolve, hat⟩

/-- A place that is found has the same eligible files as it is shown, unless the paths to them are
too long where it is spelled in full. -/
theorem IsPlace.eligible_display (hroot : disk.root.WellFormed)
    (hhere : ∀ name ∈ disk.here, Node.IsName name)
    (hcwd : ∃ entries, disk.root.at? disk.here = some (.directory entries))
    (h : IsPlace disk location) (hfits : FilesFit disk (Path.tidy location))
    {entries : Entries Node} (hlist : disk.list (Path.tidy location) = .ok entries) :
    Directory.eligible disk (disk.display location) entries =
      Directory.eligible disk (Path.tidy location) entries := by
  obtain ⟨here, hat⟩ := hcwd
  obtain ⟨place, hresolve, -⟩ := Disk.node_eq_ok_iff.1 (Disk.list_eq_ok_iff.1 hlist)
  have hway : disk.SameWay (Path.tidy location) (disk.display location) := by
    have htidy := Disk.sameWay_display hhere h.toIsLocation.tidy hat hresolve
    rwa [Disk.display_tidy h.toIsLocation] at htidy
  refine Directory.eligible_congr fun name hname hrole => ?_
  have hentry : Node.IsName name := Disk.isName_of_list hroot hlist hname
  have hcomponent := Path.isComponent_of_isName hentry
  have hlong : (Path.join (Path.tidy location) name).utf8ByteSize ≤ Disk.maxPathBytes :=
    hfits entries hlist name hname hrole
  have hshort : (Path.join (disk.display location) name).utf8ByteSize ≤ Disk.maxPathBytes :=
    (Disk.size_join_display_le hhere h.toIsLocation hcomponent).trans hlong
  rw [Disk.isFile, Disk.isFile, hway.node_join hentry hlong hshort]

/-- A directory below a place forms the same unit whether it is reached from the place or from the
place as it is shown. -/
theorem sameFiles_of_isPlace (hroot : disk.root.WellFormed)
    (hhere : ∀ name ∈ disk.here, Node.IsName name)
    (hcwd : ∃ entries, disk.root.at? disk.here = some (.directory entries)) {names : List String}
    (hnames : ∀ name ∈ names, Node.IsName name) (hlocation : Path.IsLocation location)
    (hplace : IsPlace disk (Directory.descend location names)) {d : String}
    (hd : d = Path.normal (Directory.descend (disk.display location) names))
    (hbuildable : Directory.isBuildable disk d = .ok true) (hfits : FilesFit disk d) :
    ∃ unit unit', Directory.unit disk (disk.display (Directory.descend location names)) = .ok unit ∧
      Directory.unit disk d = .ok unit' ∧
      Path.absolute disk.cwd unit.directory = Path.absolute disk.cwd d ∧ SameFiles unit unit' := by
  obtain ⟨entries, hlist⟩ := hplace.list
  have hshown := hplace.list_display hhere hcwd
  rw [hlist] at hshown
  obtain ⟨hvisited, heligible⟩ : disk.list d = .ok entries ∧
      Directory.eligible disk (disk.display (Directory.descend location names)) entries =
        Directory.eligible disk d entries := by
    rcases Disk.display_descend hhere hlocation hnames with hsame | hwhole
    · -- The directory is shown as it was visited.
      have heq : disk.display (Directory.descend location names) = d := hsame.trans hd.symm
      rw [heq] at hshown ⊢
      exact ⟨hshown, rfl⟩
    · -- It was visited by its whole spelling, but it may lie in the working directory.
      obtain rfl : d = Path.tidy (Directory.descend location names) := hd.trans hwhole
      have hvisited := hplace.list_tidy.trans hlist
      exact ⟨hvisited, hplace.eligible_display hroot hhere hcwd hfits hvisited⟩
  -- The directory was visited as a unit, so it has source files, and by both spellings the same.
  have hsome : (Directory.eligible disk d entries).isEmpty = false := by
    rw [Directory.isBuildable_of_list hvisited] at hbuildable
    simpa using hbuildable
  refine ⟨_, _, Directory.unit_of_not_isEmpty hshown (by rw [heligible]; exact hsome),
    Directory.unit_of_not_isEmpty hvisited hsome, ?_, ?_⟩
  · rw [hd]
    exact Disk.absolute_display_descend hhere hlocation hnames
  · rw [heligible]
    exact ⟨rfl, rfl, rfl⟩

end Package

end LintFront
