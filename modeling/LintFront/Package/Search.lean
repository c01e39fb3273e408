import LintFront.FileTree.Archive
import LintFront.Package.Specifier
/-!
# Searching for packages

A package is searched for one identifier at a time. The outermost identifier is looked up in the
base directory and then along the search path; every further identifier is looked up in the places
that the identifier before it led to. Nothing is loaded on the way.

In one place an identifier may stand for three things, tried in this order: a directory with an
initial file, which is a package; a file with a module suffix, which is a module; a directory of
that name, which is a *portion*. A package or module ends the search. A portion does not: the places
after it may still hold a package or module, and only when none does are all portions together taken
for a package.

A place is a directory or lies in an archive. Other things that a search path may be taught to lead
to are left out.

## Main statements

`lookUp_cons_package`: a place that holds a package hides all places after it.
-/

namespace LintFront.Package

/-- The ends of the names of module files, in the order in which they are tried. -/
def moduleSuffixes : List String :=
  [".cpython-311-x86_64-linux-gnu.so", ".abi3.so", ".so", ".py", ".pyc"]

/-- What one identifier led to. -/
inductive Found where
  /-- The directory of a package with an initial file. -/
  | package (location : String)
  /-- The file of a module. -/
  | module (origin : String)
  /-- The directories that together are a package without an initial file. -/
  | portions (locations : List String)
  deriving DecidableEq, Repr

namespace Found

/-- The places in which further identifiers are looked up; a module has none. -/
def locations : Found → List String
  | package location => [location]
  | module _ => []
  | portions locations => locations

end Found

/-- The text without slashes at its end. -/
def chop (s : String) : String := String.ofList (Path.dropEndSlashes s.toList)

/-- The absolute spelling of a place on the search path. The empty place and the single dot are the
working directory; dots inside a longer place stay. -/
def anchored (disk : Disk) (place : String) : String :=
  if place = "" ∨ place = "." then disk.cwd
  else if Path.isAbsolute place then place
  else chop disk.cwd ++ "/" ++ chop place

/-- The spelling of a name in a place. -/
def inside (place name : String) : String := chop place ++ "/" ++ name

/-- What one identifier stands for in one place. -/
inductive Hit where
  | package (location : String)
  | module (origin : String)
  | portion (location : String)
  | nothing
  deriving DecidableEq, Repr

/-- The ends of the names of module files in an archive, in the order in which they are tried. -/
def memberSuffixes : List String := [".pyc", ".py"]

/-- What looks identifiers up in one place: where the place is, how module files end there, and
which files and directories there are. -/
structure Finder where
  place : String
  suffixes : List String
  isFile : String → Bool
  isDirectory : String → Bool

namespace Finder

/-- What looks identifiers up in the directory `place`. -/
def ofDirectory (disk : Disk) (place : String) : Finder where
  place := anchored disk place
  suffixes := moduleSuffixes
  isFile := disk.isFile
  isDirectory := disk.isDirectory

/-- What looks identifiers up in an archive. Only a member whose name ends in a slash is a directory
there; that others lie below it does not make it one. -/
def ofArchive (archive : Archive) : Finder where
  place := archive.place
  suffixes := memberSuffixes
  isFile := archive.holds
  isDirectory path := archive.holds (path ++ "/")

/-- What the identifier `name` stands for in the place. -/
def probe (finder : Finder) (name : String) : Hit :=
  let location := inside finder.place name
  if finder.suffixes.any fun suffix => finder.isFile (inside location ("__init__" ++ suffix)) then
    .package location
  else
    match (finder.suffixes.map fun suffix => inside finder.place (name ++ suffix)).find?
      finder.isFile with
    | some origin => .module origin
    | none => if finder.isDirectory location then .portion location else .nothing

end Finder

/-- A place on the search path, as it is asked for on a disk. -/
def entry (disk : Disk) (place : String) : String := if place = "" then disk.cwd else place

/-- What looks identifiers up in a place on the search path; none where the place is neither in an
archive nor a directory. -/
def finder? (disk : Disk) (place : String) : Except Fault (Option Finder) :=
  match disk.archive? (entry disk place) with
  | some archive => .ok (some (.ofArchive archive))
  | none =>
    if '\x00' ∈ place.toList then .error .embeddedNull
    else if disk.isDirectory (entry disk place) then .ok (some (.ofDirectory disk place))
    else .ok none

/-- What the identifier `name` stands for in a place on the search path. -/
def probeAt (disk : Disk) (name place : String) : Except Fault Hit :=
  (finder? disk place).map fun
    | some finder => finder.probe name
    | none => .nothing

/-- Looks an identifier up in one place after the other; `portions` are the ones met so far. -/
def lookUp (disk : Disk) (name : String) (portions : List String) :
    List String → Except Fault (Option Found)
  | [] => .ok (if portions.isEmpty then none else some (.portions portions))
  | place :: rest =>
    match probeAt disk name place with
    | .error fault => .error fault
    | .ok (.package location) => .ok (some (.package location))
    | .ok (.module origin) => .ok (some (.module origin))
    | .ok (.portion location) => lookUp disk name (portions ++ [location]) rest
    | .ok .nothing => lookUp disk name portions rest

/-- Looks one identifier up; `parents` are the identifiers before it. Inside another package
portions are no package. -/
def step (disk : Disk) (parents : List String) (name : String) (places : List String) :
    Except Fault (Option Found) :=
  match lookUp disk name [] places with
  | .ok (some (.portions locations)) =>
    if parents.isEmpty then .ok (some (.portions locations))
    else .error (.parentNotLoaded (".".intercalate parents))
  | other => other

/-- Looks the identifiers `todo` up one inside the other, after `done`, which led to `found`. The
`whole` specifier and the base directory are for the messages. -/
def locateFrom (disk : Disk) (whole base : String) (done : List String) (found : Found) :
    List String → Except Trouble Found
  | [] => .ok found
  | name :: rest =>
    if found.locations.isEmpty then
      .error (.noUnit (.parentIsModule whole (".".intercalate done)))
    else
      match step disk done name found.locations with
      | .error fault => .error (.fault fault)
      | .ok none => .error (.noUnit (.packageNotFound whole base))
      | .ok (some next) => locateFrom disk whole base (done ++ [name]) next rest

/-- What a specifier leads to, searched in the base directory and then along the search path
(`PackageResolver._find_spec`). -/
def locate (disk : Disk) (search : List String) (base : String) (spec : Specifier) :
    Except Trouble Found :=
  locateFrom disk spec.dotted base [] (.portions (Path.absolute disk.cwd base :: search))
    spec.segments

/-- A place that holds a package hides all places after it. -/
theorem lookUp_cons_package {disk : Disk} {name place location : String}
    (hit : probeAt disk name place = .ok (.package location)) (portions rest : List String) :
    lookUp disk name portions (place :: rest) = .ok (some (.package location)) := by
  simp only [lookUp, hit]

end LintFront.Package
