import LintFront.CommandLine.Command
import LintFront.Source.Check
/-!
# The program

The command is a pure function of the disk it sees. The program takes a picture of the part of the
real disk that the command line can reach, runs the command on it, and writes what the command
says. The picture holds the working directory and every place that an argument or the search path
names; files are read only if they may be source or settings, or are named themselves.
-/

namespace LintFront.Program

/-- May the content of a file with this name be needed? -/
def isReadable (name : String) : Bool :=
  [".py", ".pyi", ".toml"].any fun suffix => Text.hasEnding name suffix

/-- The picture of what lies under an entry of a directory. A link that leads nowhere is one that
leads to itself. -/
partial def picture (entry : IO.FS.DirEntry) : IO Node := do
  match (← entry.path.symlinkMetadata).type with
  | .symlink =>
    try return .link (← IO.FS.realPath entry.path).toString
    catch _ => return .link entry.fileName
  | .dir => return .directory (← (← entry.path.readDir).toList.mapM fun e => do
      return (e.fileName, ← picture e))
  | _ =>
    if isReadable entry.fileName then return .file (← IO.FS.readBinFile entry.path)
    else return .file .empty

/-- Adds the picture of a place to a disk, if there is something at the place. -/
def addPlace (disk : Disk) (place : String) : IO Disk := do
  try
    let path ← IO.FS.realPath place
    if ← path.isDir then
      let entries ← (← path.readDir).toList.mapM fun e => do return (e.fileName, ← picture e)
      return disk.put path.toString (.directory entries)
    else return disk.write path.toString (← IO.FS.readBinFile path)
  catch _ => return disk

/-- The places that an argument may name: the argument itself, without a marker, and as the value of
an option. -/
def placesOf (arg : String) : List String :=
  [stripMarker arg, arg] ++ (Arguments.cut arg).2.toList

/-- Where packages are searched besides the working directory. -/
def searchPath : IO (List String) := do
  match ← IO.getEnv "PYTHONPATH" with
  | some path => return (path.toList.splitOn ':').map String.ofList
  | none => return []

/-- The host that the program runs on, as far as the arguments can reach it. -/
def host (args : List String) : IO Host := do
  let here := (← IO.FS.realPath ".").toString
  let search ← searchPath
  let empty : Disk := { root := .emptyDirectory, here := Path.absoluteNames "/" here }
  let places := here :: search ++ args.flatMap placesOf
  return {
    disk := ← places.foldlM addPlace empty
    search
    installation := .listed []
    parse := Source.parser
    tty := (← (← IO.getStdout).isTty) && (← (← IO.getStderr).isTty) }

end LintFront.Program

open LintFront in
/-- Runs the command and ends with its exit status; a fault is reported as it is. -/
def main (args : List String) : IO UInt32 := do
  let outcome := Command.run (← Program.host args) args
  (← IO.getStdout).putStr outcome.output.out
  (← IO.getStderr).putStr outcome.output.err
  match outcome.status with
  | .ok status => return status.toUInt32
  | .error fault =>
    (← IO.getStderr).putStrLn fault.message
    return 1
