import LintFront.Text.Ending
/-!
# Paths

A path is written as text, and the spelling matters: messages repeat it, and two spellings of one
directory must be recognised. A spelling is taken apart once, into the slashes that anchor it and
the components between slashes; empty components and single dots say nothing and are dropped. What
else is done to a path is done to its components.

* `Path.tidy` is the spelling without the components that say nothing; `..` stays, since a link may
  stand before it.
* `Path.normal` also removes every `..` together with the component before it.
* `Path.absolute`, `Path.relative` and `Path.join` relate a spelling to a directory.

An anchor of exactly two slashes is a spelling of its own; any longer run of slashes is one slash.
-/

namespace LintFront

/-- A path taken apart. -/
structure Path where
  /-- How many slashes anchor it: none for a relative path, else one or two. -/
  anchor : Nat
  /-- The components, none of them empty or a single dot. -/
  names : List String
  deriving DecidableEq, Repr

namespace Path

/-! ## 1. Spelling -/

/-- The pieces of a text between slashes. -/
def pieces (s : String) : List String := (s.toList.splitOn '/').map String.ofList

/-- Does a piece say anything about where the path leads? -/
def isTelling (piece : String) : Bool := piece ≠ "" && piece ≠ "."

/-- The anchor of a spelling. -/
def anchorOf (s : String) : Nat :=
  match s.toList with
  | '/' :: '/' :: '/' :: _ => 1
  | '/' :: '/' :: _ => 2
  | '/' :: _ => 1
  | _ => 0

/-- A spelling taken apart. -/
def parse (s : String) : Path := ⟨anchorOf s, (pieces s).filter isTelling⟩

/-- The shortest spelling of a path; the path without anchor and components is the dot. -/
def text (p : Path) : String :=
  if p.anchor = 0 ∧ p.names = [] then "."
  else String.ofList (List.replicate p.anchor '/') ++ "/".intercalate p.names

/-- The spelling without repeated slashes, dots, and slashes at the end. -/
def tidy (s : String) : String := (parse s).text

def isAbsolute (s : String) : Bool := s.startsWith "/"

/-! ## 2. Parent components -/

/-- Appends a component to the components so far, which are kept last first: `..` takes the last
one back. There is nothing above an anchor, and a relative path keeps the `..` that lead out of
it. -/
def climb (anchored : Bool) (soFar : List String) (name : String) : List String :=
  if name = ".." then
    match soFar with
    | [] => if anchored then [] else [".."]
    | last :: rest => if last = ".." then ".." :: last :: rest else rest
  else name :: soFar

/-- The path without any `..` but those at the start of a relative path. -/
def collapse (p : Path) : Path :=
  ⟨p.anchor, (p.names.foldl (climb (p.anchor ≠ 0)) []).reverse⟩

theorem anchor_collapse (p : Path) : p.collapse.anchor = p.anchor := rfl

/-- The normal spelling of a path. -/
def normal (s : String) : String := (parse s).collapse.text

/-! ## 3. Relating paths -/

/-- `name` as seen from `directory`; an absolute `name` stands for itself. -/
def join (directory name : String) : String :=
  if isAbsolute name then name
  else if directory = "" ∨ Text.hasEnding directory "/" then directory ++ name
  else directory ++ "/" ++ name

/-- The normal absolute spelling of `s`, seen from the absolute directory `base`. -/
def absolute (base s : String) : String :=
  normal (if isAbsolute s then s else join base s)

/-- The components of the absolute spelling of `s`. -/
def absoluteNames (base s : String) : List String := (parse (absolute base s)).names

/-- What is left of two lists when the components they share at the start are gone. -/
def dropShared : List String → List String → List String × List String
  | a :: as, b :: bs => if a = b then dropShared as bs else (a :: as, b :: bs)
  | as, bs => (as, bs)

/-- The way from the directory `start` to `s`: up out of what they do not share, then down. -/
def relativeNames (base s start : String) : List String :=
  let (up, down) := dropShared (absoluteNames base start) (absoluteNames base s)
  up.map (fun _ => "..") ++ down

/-- The spelling of the way from `start` to `s`. -/
def relative (base s start : String) : String :=
  match relativeNames base s start with
  | [] => "."
  | names => "/".intercalate names

/-- What follows the last slash. -/
def baseName (s : String) : String := (pieces s).getLast?.getD ""

/-- The text without slashes at its end. -/
def dropEndSlashes (s : List Char) : List Char := (s.reverse.dropWhile (· = '/')).reverse

/-- What precedes the last component, without the slashes between them unless there is nothing
else, and the last component. -/
def split (s : String) : String × String :=
  let name := baseName s
  let head := s.toList.take (s.toList.length - name.toList.length)
  let shortened := dropEndSlashes head
  (String.ofList (if shortened.isEmpty then head else shortened), name)

end Path

end LintFront
