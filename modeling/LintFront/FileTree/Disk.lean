import LintFront.FileTree.Node
import LintFront.Path
/-!
# Disks

A disk is a file tree together with the directory in which paths begin. A path is followed one
component at a time, from the root or from the working directory. `..` leaves a directory for the
one that holds it, so after a link it leads elsewhere than the spelling suggests; a link on the way
is replaced by what it points to. At most forty links are followed on one path, which also ends the
search when links go in circles.

The answer of `Disk.resolve` is the list of names under which the node really lies. It passes
through no link, so `Node.at?` finds the node there.

What is written need not be there before. `Disk.clearWay` walks a path in the same manner, link by
link, and makes the directories that it misses, so that a new file lies where `Disk.resolve` will
look for it.
-/

namespace LintFront

/-- Why a path cannot be used. -/
inductive AccessError where
  | missing
  | notDirectory
  | isDirectory
  | nameTooLong
  | linkLoop
  /-- The path holds a null character, which no path may hold. -/
  | embeddedNull
  deriving DecidableEq, Repr

namespace AccessError

/-- The wording of an error. -/
def reason : AccessError → String
  | missing => "No such file or directory"
  | notDirectory => "Not a directory"
  | isDirectory => "Is a directory"
  | nameTooLong => "File name too long"
  | linkLoop => "Too many levels of symbolic links"
  | embeddedNull => "embedded null byte"

end AccessError

/-- A file tree and the working directory: the names that lead to it without passing a link. -/
structure Disk where
  root : Node
  here : List String

namespace Disk

/-! ## 1. Following a path -/

/-- The greatest number of bytes in a component of a path. -/
def maxNameBytes : Nat := 255

/-- The greatest number of bytes in a path. -/
def maxPathBytes : Nat := 4095

/-- The greatest number of links followed on one path. -/
def maxLinks : Nat := 40

/-- The components of a spelling in the order in which they are followed. A slash at the end asks
for a directory, as a dot there does. -/
def steps (path : String) : List String :=
  (Path.pieces path).filter (· ≠ "") ++ if Text.hasEnding path "/" then ["."] else []

/-- Where a path begins that is met in the directory `place`. -/
def start (place : List String) (path : String) : List String :=
  if Path.isAbsolute path then [] else place

/-- Follows the components `todo` from the directory at `place`; `links` more links may be
followed. -/
def follow (root : Node) (links : Nat) (place todo : List String) :
    Except AccessError (List String) :=
  match todo with
  | [] => .ok place
  | step :: rest =>
    match root.at? place with
    | none => .error .missing
    | some (.directory entries) =>
      if step = "." then follow root links place rest
      else if step = ".." then follow root links place.dropLast rest
      else if maxNameBytes < step.utf8ByteSize then .error .nameTooLong
      else
        match Entries.find? step entries with
        | none => .error .missing
        | some (.link target) =>
          match links with
          | 0 => .error .linkLoop
          | links + 1 => follow root links (start place target) (steps target ++ rest)
        | some _ => follow root links (place ++ [step]) rest
    | some _ => .error .notDirectory
termination_by (links, todo.length)

/-! ## 2. Asking a disk -/

/-- Where the node named by a path really lies. -/
def resolve (disk : Disk) (path : String) : Except AccessError (List String) :=
  if '\x00' ∈ path.toList then .error .embeddedNull
  else if path = "" then .error .missing
  else if maxPathBytes < path.utf8ByteSize then .error .nameTooLong
  else follow disk.root maxLinks (start disk.here path) (steps path)

/-- The node named by a path, links followed. -/
def node (disk : Disk) (path : String) : Except AccessError Node :=
  match disk.resolve path with
  | .error e => .error e
  | .ok place =>
    match disk.root.at? place with
    | some node => .ok node
    | none => .error .missing

/-- Does the path name a directory? -/
def isDirectory (disk : Disk) (path : String) : Bool :=
  match disk.node path with
  | .ok node => node.isDirectory
  | .error _ => false

/-- Does the path name a regular file? -/
def isFile (disk : Disk) (path : String) : Bool :=
  match disk.node path with
  | .ok node => node.isFile
  | .error _ => false

/-- Does the path name anything? -/
def holds (disk : Disk) (path : String) : Bool :=
  match disk.node path with
  | .ok _ => true
  | .error _ => false

/-- The entries of the directory named by a path. -/
def list (disk : Disk) (path : String) : Except AccessError (Entries Node) :=
  match disk.node path with
  | .ok (.directory entries) => .ok entries
  | .ok _ => .error .notDirectory
  | .error e => .error e

/-- The bytes of the file named by a path. The spelling is tidied first, so a slash after the name
of a file does no harm. -/
def read (disk : Disk) (path : String) : Except AccessError ByteArray :=
  match disk.node (Path.tidy path) with
  | .ok (.file content) => .ok content
  | .ok _ => .error .isDirectory
  | .error e => .error e

/-- The absolute spelling of the working directory. -/
def cwd (disk : Disk) : String := (Path.mk 1 disk.here).text

/-- The disk with another working directory, when the path names a directory. -/
def enter (disk : Disk) (path : String) : Except AccessError Disk :=
  match disk.resolve path with
  | .error e => .error e
  | .ok place =>
    match disk.root.at? place with
    | some (.directory _) => .ok { disk with here := place }
    | some _ => .error .notDirectory
    | none => .error .missing

/-! ## 3. Changing a disk -/

/-- Clears the way along the components `todo` from the directory at `place`: the tree in which the
directories that were missing are made, and where the way ends. The end itself need not exist;
links are followed, at the end too, as long as `links` more of them may be. -/
def clearWay (root : Node) (links : Nat) (place todo : List String) : Node × List String :=
  match todo with
  | [] => (root, place)
  | step :: rest =>
    if step = "." then clearWay root links place rest
    else if step = ".." then clearWay root links place.dropLast rest
    else
      let next := place ++ [step]
      match root.at? next with
      | some (.link target) =>
        match links with
        | 0 => (root, next)
        | links + 1 => clearWay root links (start place target) (steps target ++ rest)
      | some _ => clearWay root links next rest
      | none =>
        if rest = [] then (root, next)
        else clearWay (Node.put .emptyDirectory root next) links next rest
termination_by (links, todo.length)

/-- Clears the way to the place that a path spells with `names`. -/
def clearTo (disk : Disk) (path : String) (names : List String) : Node × List String :=
  clearWay disk.root maxLinks (start disk.here path) names

/-- Writes a file. When the path names a link, the file is written where the link leads. -/
def write (disk : Disk) (path : String) (content : ByteArray) : Disk :=
  let (root, place) := disk.clearTo path (Path.parse path).names
  { disk with root := Node.put (.file content) root place }

/-- Makes a directory at a path unless there is one. -/
def makeDirectory (disk : Disk) (path : String) : Disk :=
  { disk with root := (disk.clearTo path ((Path.parse path).names ++ ["."])).1 }

/-- Puts a node at a path, also when the path names a link. -/
def put (disk : Disk) (path : String) (node : Node) : Disk :=
  let names := (Path.parse path).names
  let (root, parent) := disk.clearTo path (names.dropLast ++ ["."])
  { disk with root := Node.put node root (parent ++ names.getLast?.toList) }

/-- Removes the file, the link or the whole directory at a path. -/
def remove (disk : Disk) (path : String) : Disk :=
  let names := (Path.parse path).names
  match follow disk.root maxLinks (start disk.here path) names.dropLast with
  | .ok parent => { disk with root := disk.root.remove (parent ++ names.getLast?.toList) }
  | .error _ => disk

end Disk

end LintFront
