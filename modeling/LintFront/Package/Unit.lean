import LintFront.Package.Search
import LintFront.Directory.Contents
import LintFront.Target
/-!
# The units of packages

A package is linted as the unit of its directory, a module as a unit of one file. A package given
with the marker stands for itself and every buildable directory below it that can be named by
identifiers.

Places are shown relative to the working directory when they lie in it, so that the paths in the
output are the ones a user would type.
-/

namespace LintFront

/-- A path as shown to the user: relative to the working directory if it lies in it, and absolute if
not (`_display_path`). -/
def Disk.display (disk : Disk) (path : String) : String :=
  let whole := Path.absolute disk.cwd path
  if whole = disk.cwd then "."
  else if whole.startsWith (disk.cwd ++ "/") then Path.relative disk.cwd whole disk.cwd
  else whole

namespace Package

/-- The unit of a module file: that file alone. -/
def moduleUnit (disk : Disk) (dotted origin : String) : Except Trouble SourceUnit :=
  if Text.hasEnding origin ".py" || Text.hasEnding origin ".pyi" then
    let (directory, name) := Path.split (disk.display origin)
    let directory := if directory = "" then "." else directory
    .ok { directory, name := dotted, sources := [name] }
  else .error (.noUnit (.noSources origin))

/-- The unit of a package or module (`PackageResolver.resolve_package`). -/
def unit (disk : Disk) (search : List String) (text : String) (base : String) :
    Except Trouble SourceUnit := do
  let spec ← Specifier.parse text
  match ← locate disk search base spec with
  | .package location => named spec (← Directory.unit disk (disk.display location))
  | .portions (location :: _) => named spec (← Directory.unit disk (disk.display location))
  | .portions [] => .error (.noUnit (.noSources spec.dotted))
  | .module origin => moduleUnit disk spec.dotted origin
where
  /-- The unit under the name of its package. -/
  named (spec : Specifier) (unit : SourceUnit) : Except Trouble SourceUnit :=
    .ok { unit with name := spec.dotted }

/-- The directory of a package (`PackageResolver.package_directory`). -/
def directory (disk : Disk) (search : List String) (text : String) (base : String) :
    Except Trouble String := do
  let spec ← Specifier.parse text
  match (← locate disk search base spec).locations with
  | location :: _ => .ok (disk.display location)
  | [] => .error (.noUnit (.moduleNotPackage spec.dotted))

/-- The specifier of a directory at or below the directory `root` of the package `spec`; none if a
component on the way is no identifier. -/
def specifierBelow? (disk : Disk) (spec : Specifier) (root path : String) : Option String :=
  let names := Path.relativeNames disk.cwd path root
  if names.all Text.isIdentifier then some (".".intercalate (spec.segments ++ names)) else none

/-- The specifiers that an argument stands for (`PackageResolver.expand_package`). Without the
marker it stands for itself. -/
def expand (disk : Disk) (search excludes : List String) (text : String) (base : String) :
    Except Trouble (List String) :=
  if hasMarker text then do
    let spec ← Specifier.parse (stripMarker text)
    let root ← directory disk search spec.dotted base
    match Directory.expand disk excludes root with
    | .error fault => .error (.fault fault)
    | .ok paths => .ok (paths.filterMap (specifierBelow? disk spec root))
  else .ok [text]

end Package

end LintFront
