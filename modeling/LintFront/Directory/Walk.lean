import LintFront.Directory.Pruning
import LintFront.FileTree.Disk
/-!
# Walking a directory

The walk visits a directory, then what lies below it, a directory before its subdirectories and
siblings in the order of their names. Links are not entered, so the walk is a recursion on the tree
and ends even where links form cycles; skipped names are not entered either.

`Node.branches` gives the walk as sequences of names below its starting node, and `walk` spells them
as paths seen from the starting path.

The walk goes down as far as there are directories. A runtime that bounds the calls under way can
end it sooner, with an error, if it walks by recursion: about a thousand directories, one inside the
other, are needed for that. This bound is not modelled, so what is shown of walks is shown of those
that do not meet it.
-/

namespace LintFront

mutual

/-- The sequences of names that lead from a node to the directories at and below it, none of them
through a skipped name or a link. Any node but a directory has none. -/
def Node.branches (skip : String → Bool) : Node → List (List String)
  | .directory entries =>
    [] :: ((Node.branchesOf skip entries).mergeSort fun a b => a.1 ≤ b.1).flatMap fun e =>
      e.2.map (e.1 :: ·)
  | .file _ => []
  | .link _ => []

/-- The branches below each entry that is not skipped. -/
def Node.branchesOf (skip : String → Bool) :
    List (String × Node) → List (String × List (List String))
  | [] => []
  | (name, child) :: rest =>
    if skip name then Node.branchesOf skip rest
    else (name, child.branches skip) :: Node.branchesOf skip rest

end

namespace Directory

/-- A path that goes down from `root` along a sequence of names. -/
def descend (root : String) (names : List String) : String := names.foldl Path.join root

/-- The directories at and below `root`, in their normal spelling (`iter_directories`). Nothing is
visited when `root` is no directory, and a directory is not visited when the path to it is too long
to be used. The one error is a path that holds a null character. -/
def walk (disk : Disk) (excludes : List String) (root : String) :
    Except AccessError (List String) :=
  match disk.node root with
  | .error .embeddedNull => .error .embeddedNull
  | .error _ => .ok []
  | .ok node =>
    .ok (((node.branches (isSkipped excludes)).map (descend root)).filter
      (·.utf8ByteSize ≤ Disk.maxPathBytes) |>.map Path.normal)

/-- The paths that satisfy `accept`, in order; the first error ends the search. -/
def accepted {ε : Type} (accept : String → Except ε Bool) : List String →
    Except ε (List String)
  | [] => .ok []
  | path :: rest =>
    match accept path with
    | .error e => .error e
    | .ok yes => (accepted accept rest).map fun found => if yes then path :: found else found

/-- The paths found so far and, in order, the further ones that satisfy `accept`
(`expand_directory`). A path that was found is not judged again; the first error ends the search. -/
def acceptedOnce {ε : Type} (accept : String → Except ε Bool) (found : List String) :
    List String → Except ε (List String)
  | [] => .ok found
  | path :: rest =>
    if found.contains path then acceptedOnce accept found rest
    else
      match accept path with
      | .error e => .error e
      | .ok yes => acceptedOnce accept (if yes then found ++ [path] else found) rest

end Directory

end LintFront
