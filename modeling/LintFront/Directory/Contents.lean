import LintFront.SourceUnit
import LintFront.Directory.Walk
/-!
# The unit of a directory

A directory forms the unit of the source files directly inside it. Hidden files do not count, and a
link counts as what it leads to. A directory without source files forms no unit.
-/

namespace LintFront.Directory

/-- What a directory that cannot be listed is reported as. -/
def listingTrouble (directory : String) : AccessError → Trouble
  | .embeddedNull => .fault .embeddedNull
  | .missing => .noUnit (.missingDirectory directory)
  | .notDirectory => .noUnit (.notADirectory directory)
  | cause => .noUnit (.unreadableDirectory directory cause)

/-- The names of the eligible files of a directory with these entries, in ascending order. -/
def eligible (disk : Disk) (directory : String) (entries : Entries Node) : List String :=
  (entries.names.filter fun name =>
    !name.startsWith "." && disk.isFile (Path.join directory name) && (role? name).isSome).mergeSort
      (· ≤ ·)

/-- The unit of a directory (`PackageResolver.resolve_dir`). -/
def unit (disk : Disk) (directory : String) : Except Trouble SourceUnit :=
  match disk.list directory with
  | .error cause => .error (listingTrouble directory cause)
  | .ok entries =>
    let names := eligible disk directory entries
    if names.isEmpty then .error (.noUnit (.noSources directory))
    else .ok (.ofNames directory (Path.baseName (Path.absolute disk.cwd directory)) names)

/-- Is a directory visited as a unit (`PackageResolver.is_buildable`)? Only the lack of source files
keeps it out; any other trouble is reported when its turn comes. -/
def isBuildable (disk : Disk) (directory : String) : Except Fault Bool :=
  match unit disk directory with
  | .ok _ => .ok true
  | .error (.noUnit (.noSources _)) => .ok false
  | .error (.noUnit _) => .ok true
  | .error (.fault fault) => .error fault

/-- The directories at and below `root` that satisfy `accept`, each once (`expand_directory`). -/
def expandBy (disk : Disk) (excludes : List String) (accept : String → Except Fault Bool)
    (root : String) : Except Fault (List String) :=
  match walk disk excludes root with
  | .error _ => .error .embeddedNull
  | .ok paths => acceptedOnce accept [] paths

/-- The directories at and below `root` that are visited as units (`PackageResolver.expand_dir`). -/
def expand (disk : Disk) (excludes : List String) (root : String) : Except Fault (List String) :=
  match walk disk excludes root with
  | .error _ => .error .embeddedNull
  | .ok paths => accepted (isBuildable disk) paths

end LintFront.Directory
