import LintFront.Entries
/-!
# File trees

What lies on a disk is a tree of directories; its leaves are regular files and symbolic links. A
file is its bytes, a link is the text it points to, and a directory is its entries by name. The tree
says nothing about how paths are followed; that is the business of `FileTree.Disk`.

A tree is *well formed* when the names of each directory are distinct and could be written as one
component of a path. Every tree that is read from a disk is.
-/

namespace LintFront

/-- A file, a link, or a directory with all below it. -/
inductive Node where
  | file (content : ByteArray)
  | link (target : String)
  | directory (entries : List (String × Node))

namespace Node

def emptyDirectory : Node := directory []

/-- The entries of a directory; other nodes have none. -/
def entries : Node → Entries Node
  | directory entries => entries
  | _ => []

def isDirectory : Node → Bool
  | directory _ => true
  | _ => false

def isFile : Node → Bool
  | file _ => true
  | _ => false

/-- The node that a list of names leads to, link by no link. -/
def at? : Node → List String → Option Node
  | node, [] => some node
  | node, name :: rest =>
    match node.entries.find? name with
    | some child => child.at? rest
    | none => none

/-- Puts a node at the end of a list of names, replacing what is there. Directories that are missing
on the way are made; a file or link on the way is replaced by a directory. -/
def put (new : Node) : Node → List String → Node
  | _, [] => new
  | node, name :: rest =>
    directory (node.entries.alter name fun old => put new (old.getD emptyDirectory) rest)

/-- Removes the node at the end of a list of names. -/
def remove : Node → List String → Node
  | node, [] => node
  | node, [name] => directory (node.entries.erase name)
  | node, name :: next :: rest =>
    match node.entries.find? name with
    | some child => directory (node.entries.insert name (child.remove (next :: rest)))
    | none => node

/-- May `name` be a component of a path? -/
def IsName (name : String) : Prop :=
  name ≠ "" ∧ name ≠ "." ∧ name ≠ ".." ∧ '/' ∉ name.toList ∧ '\x00' ∉ name.toList

/-- The names of each directory of the tree are distinct and are names. -/
inductive WellFormed : Node → Prop where
  | file (content : ByteArray) : WellFormed (.file content)
  | link (target : String) : WellFormed (.link target)
  | directory {entries : Entries Node} (distinct : entries.names.Nodup)
      (named : ∀ e ∈ entries, IsName e.1) (below : ∀ e ∈ entries, WellFormed e.2) :
      WellFormed (.directory entries)

@[simp] theorem at?_nil (node : Node) : node.at? [] = some node := by cases node <;> rfl

theorem at?_cons (node : Node) (name : String) (rest : List String) :
    node.at? (name :: rest) = (node.entries.find? name).bind (·.at? rest) := by
  cases h : node.entries.find? name <;> simp [at?, h]

/-- Below a name there is something only in a directory with an entry of this name. -/
theorem exists_of_at?_cons {node found : Node} {name : String} {rest : List String}
    (h : node.at? (name :: rest) = some found) :
    ∃ (entries : Entries Node) (child : Node), node = directory entries ∧
      entries.find? name = some child ∧ child.at? rest = some found := by
  rw [at?_cons] at h
  obtain ⟨child, hchild, hrest⟩ := Option.bind_eq_some_iff.1 h
  cases node with
  | directory entries => exact ⟨entries, child, rfl, hchild, hrest⟩
  | _ => cases hchild

/-- Going down two lists of names is going down their concatenation. -/
theorem at?_append (node : Node) (a b : List String) :
    node.at? (a ++ b) = (node.at? a).bind (·.at? b) := by
  induction a generalizing node with
  | nil => simp
  | cons name a ih =>
    rw [List.cons_append, at?_cons, at?_cons]
    cases node.entries.find? name <;> simp [ih]

/-- What was put is there. -/
theorem at?_put (new node : Node) (names : List String) :
    (put new node names).at? names = some new := by
  induction names generalizing node with
  | nil => simp [put]
  | cons name names ih => simp [put, at?_cons, entries, ih]

end Node

end LintFront
