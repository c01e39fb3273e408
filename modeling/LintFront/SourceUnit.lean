import LintFront.FileTree.Disk
import LintFront.Text.Quoted
/-!
# Units of source files

The files that lie directly in one directory are linted together: they form a *unit*. A unit has
three sorts of files, told apart by name alone: stubs, tests, and the sources proper.

A target that forms no unit has a reason, `UnitError`. One reason is harmless, that there are no
source files at all; the others are reported. Two further things can go wrong while a target is
looked at, and they are not about the target: they are `Fault`s and end the run.
-/

namespace LintFront

/-! ## 1. Files by name -/

/-- The sort of a source file. -/
inductive Role where
  | source
  | stub
  | test
  deriving DecidableEq, Repr

/-- Does a file of this name hold tests (`is_test_file`)? -/
def isTestFile (name : String) : Bool :=
  name = "conftest.py" ||
    Text.hasEnding name ".py" && (name.startsWith "test_" || Text.hasEnding name "_test.py")

/-- The sort of a file by its name, none for a file that is no source file. -/
def role? (name : String) : Option Role :=
  if Text.hasEnding name ".pyi" then some .stub
  else if isTestFile name then some .test
  else if Text.hasEnding name ".py" then some .source
  else none

/-! ## 2. Units -/

/-- The source files of one directory (`PackageInfo`). -/
structure SourceUnit where
  /-- The directory that holds the files; the dot is the working directory. -/
  directory : String
  name : String
  sources : List String
  stubs : List String := []
  tests : List String := []
  deriving DecidableEq, Repr

namespace SourceUnit

/-- The names of all files: sources, then stubs, then tests. -/
def names (unit : SourceUnit) : List String :=
  (unit.sources ++ unit.stubs ++ unit.tests).eraseDups

/-- The paths of all files, each once (`PackageInfo.files`). In the working directory a bare name is
a path. -/
def files (unit : SourceUnit) : List String :=
  if unit.directory = "." then unit.names else unit.names.map (Path.join unit.directory)

/-- The unit of the files `names`, sorted by their roles. -/
def ofNames (directory name : String) (names : List String) : SourceUnit where
  directory := directory
  name := name
  sources := names.filter fun n => role? n = some .source
  stubs := names.filter fun n => role? n = some .stub
  tests := names.filter fun n => role? n = some .test

end SourceUnit

/-! ## 3. Why a target forms no unit -/

/-- Why a target forms no unit (`ResolutionError`). -/
inductive UnitError where
  /-- There are no source files at the place. -/
  | noSources (place : String)
  | missingDirectory (directory : String)
  | notADirectory (directory : String)
  | unreadableDirectory (directory : String) (cause : AccessError)
  /-- The text is neither a path to something nor a package specifier. -/
  | badSpecifier (specifier : String)
  | packageNotFound (dotted base : String)
  /-- A package is looked for inside something that is a module. -/
  | parentIsModule (dotted parent : String)
  | moduleNotPackage (dotted : String)
  deriving DecidableEq, Repr

namespace UnitError

/-- The wording of a reason. -/
def message : UnitError → String
  | noSources place => "no buildable Python source files in " ++ place
  | missingDirectory directory => "cannot find directory " ++ directory
  | notADirectory directory => directory ++ " is not a directory"
  | unreadableDirectory directory cause =>
    "cannot read directory " ++ directory ++ ": " ++ cause.reason
  | badSpecifier specifier =>
    "cannot find package " ++ Text.quote specifier ++
      ": not a directory, file, or valid package name"
  | packageNotFound dotted base =>
    "cannot find package " ++ Text.quote dotted ++ " in " ++ base ++
      " or the module search path"
  | parentIsModule dotted parent =>
    "cannot find package " ++ Text.quote dotted ++ ": " ++ parent ++
      " is a module, not a package"
  | moduleNotPackage dotted => dotted ++ " is a module, not a package"

end UnitError

/-- What ends a run whatever the target is. -/
inductive Fault where
  /-- A path holds a null character. -/
  | embeddedNull
  /-- The search came to a directory without an initial file inside the package `parent`. Such a
  directory stands for a package only together with the record of its parent among the loaded
  packages, and nothing is loaded here. -/
  | parentNotLoaded (parent : String)
  deriving DecidableEq, Repr

namespace Fault

/-- The wording of a fault. -/
def message : Fault → String
  | embeddedNull => AccessError.embeddedNull.reason
  | parentNotLoaded parent => Text.quote parent

end Fault

/-- What can go wrong while a target is turned into a unit. -/
inductive Trouble where
  /-- The target forms no unit. -/
  | noUnit (error : UnitError)
  | fault (fault : Fault)
  deriving DecidableEq, Repr

namespace Trouble

def message : Trouble → String
  | .noUnit error => error.message
  | .fault f => f.message

end Trouble

end LintFront
