import LintFront.FileTree.Disk
import LintFront.Proofs.Path.Spelling
import Mathlib.Data.Nat.Init
/-!
# Following a path step by step

One component of a path is settled by two nodes, the one where the path stands and the one that the
component names there, and of either only its kind counts and what it points to if it is a link.
`Disk.follow_cons` says so, and what is proved about paths is proved from this equation.

## Main statements

`Disk.follow_cons`: what one component does. `Disk.follow_congr`: trees that look alike are followed
alike. `Disk.follow_append`: names of real directories lead down from wherever a path leads.
-/

namespace LintFront

namespace Node

/-! ## 1. What a path can see of a node -/

/-- What kind of node it is, and for a link what it points to. -/
inductive Shape where
  | file
  | link (target : String)
  | directory
  deriving DecidableEq

def shape : Node → Shape
  | file _ => .file
  | link target => .link target
  | directory _ => .directory

/-- The kind of the node at a place, if there is one. -/
def shapeAt (node : Node) (place : List String) : Option Shape := (node.at? place).map shape

/-- Two trees that no path can tell apart. -/
def Alike (a b : Node) : Prop := ∀ place, a.shapeAt place = b.shapeAt place

theorem shapeAt_of_at? {node child : Node} {place : List String} (h : node.at? place = some child) :
    node.shapeAt place = some child.shape := by
  rw [shapeAt, h, Option.map_some]

theorem shapeAt_eq_directory_iff {node : Node} {place : List String} :
    node.shapeAt place = some .directory ↔
      ∃ entries, node.at? place = some (.directory entries) := by
  unfold shapeAt
  rcases node.at? place with _ | (content | target | entries) <;> simp [shape]

theorem file_ne_link (content : ByteArray) (target : String) : file content ≠ link target := nofun

theorem directory_ne_link (entries : Entries Node) (target : String) :
    directory entries ≠ link target := nofun

/-- The entry of a directory is what lies one name further. -/
theorem find?_eq_at? {node : Node} {place : List String} {entries : Entries Node}
    (h : node.at? place = some (.directory entries)) (name : String) :
    Entries.find? name entries = node.at? (place ++ [name]) := by
  rw [at?_append, h, Option.bind_some, at?_cons]
  show _ = (Entries.find? name entries).bind _
  cases Entries.find? name entries with
  | none => rfl
  | some child => exact (at?_nil child).symm

end Node

namespace Disk

/-! ## 2. One component -/

/-- Where a path stands after one component: how many links may still be followed, the place, and
what is to be followed before the rest of the path. -/
structure Stride where
  links : Nat
  place : List String
  before : List String := []

/-- What one component does. -/
def stride (root : Node) (links : Nat) (place : List String) (step : String) :
    Except AccessError Stride :=
  match root.shapeAt place with
  | none => .error .missing
  | some .file => .error .notDirectory
  | some (.link _) => .error .notDirectory
  | some .directory =>
    if step = "." then .ok ⟨links, place, []⟩
    else if step = ".." then .ok ⟨links, place.dropLast, []⟩
    else if maxNameBytes < step.utf8ByteSize then .error .nameTooLong
    else
      match root.shapeAt (place ++ [step]) with
      | none => .error .missing
      | some (.link target) =>
        match links with
        | 0 => .error .linkLoop
        | links + 1 => .ok ⟨links, start place target, steps target⟩
      | some .file => .ok ⟨links, place ++ [step], []⟩
      | some .directory => .ok ⟨links, place ++ [step], []⟩

@[simp] theorem follow_nil (root : Node) (links : Nat) (place : List String) :
    follow root links place [] = .ok place := by
  rw [follow]

/-- A path is followed component by component. -/
theorem follow_cons (root : Node) (links : Nat) (place : List String) (step : String)
    (rest : List String) :
    follow root links place (step :: rest) =
      (stride root links place step).bind fun s =>
        follow root s.links s.place (s.before ++ rest) := by
  rw [follow, stride]
  cases hplace : root.at? place with
  | none => rw [Node.shapeAt, hplace]; rfl
  | some node =>
    rw [Node.shapeAt_of_at? hplace]
    cases node with
    | file content => rfl
    | link target => rfl
    | directory entries =>
      dsimp only [Node.shape]
      rw [Node.find?_eq_at? hplace]
      split
      · rfl
      split
      · rfl
      split
      · rfl
      cases hnext : root.at? (place ++ [step]) with
      | none => rw [Node.shapeAt, hnext]; rfl
      | some next =>
        rw [Node.shapeAt_of_at? hnext]
        cases next with
        | link target => cases links <;> rfl
        | _ => rfl

/-- A component leaves no more links, and only by using one up does it put anything in its place. -/
theorem stride_decreases {root : Node} {links : Nat} {place : List String} {step : String}
    {s : Stride} (h : stride root links place step = .ok s) :
    s.links < links ∨ s.links = links ∧ s.before = [] := by
  -- Only a link that is followed uses one up. Wherever else a component leads, the number stays.
  unfold stride at h
  split at h <;> try cases h
  split at h
  · cases h; exact .inr ⟨rfl, rfl⟩
  split at h
  · cases h; exact .inr ⟨rfl, rfl⟩
  split at h
  · cases h
  split at h
  · cases h
  · split at h
    · cases h
    · cases h; exact .inl (Nat.lt_succ_self _)
  · cases h; exact .inr ⟨rfl, rfl⟩
  · cases h; exact .inr ⟨rfl, rfl⟩

/-- What holds of a path is shown component by component. -/
theorem follow_induction (root : Node) {motive : Nat → List String → List String → Prop}
    (nil : ∀ links place, motive links place [])
    (cons : ∀ links place step rest, (∀ s, stride root links place step = .ok s →
      motive s.links s.place (s.before ++ rest)) → motive links place (step :: rest))
    (links : Nat) (place todo : List String) : motive links place todo := by
  -- A link may put more components in the way than there were, but it is paid for with a link.
  induction links using Nat.strong_induction_on generalizing place todo with
  | h links fewer =>
    induction todo generalizing place with
    | nil => exact nil links place
    | cons step rest ih =>
      apply cons
      intro s hs
      rcases stride_decreases hs with hlt | ⟨hlinks, hbefore⟩
      · exact fewer _ hlt _ _
      · rw [hlinks, hbefore]
        exact ih s.place

/-- In trees that look alike a path leads to the same place. -/
theorem follow_congr {root root' : Node} (h : root.Alike root') (links : Nat)
    (place todo : List String) :
    follow root links place todo = follow root' links place todo := by
  induction links, place, todo using follow_induction root with
  | nil => rw [follow_nil, follow_nil]
  | cons links place step rest ih =>
    have hstride : stride root' links place step = stride root links place step := by
      rw [stride, stride, h, h]
    rw [follow_cons, follow_cons, hstride]
    cases hs : stride root links place step with
    | error cause => rfl
    | ok s => exact ih s hs

/-- A path leads somewhere when its first component does and the rest leads on from there. -/
theorem follow_cons_eq_ok_iff {root : Node} {links : Nat} {place rest target : List String}
    {step : String} :
    follow root links place (step :: rest) = .ok target ↔
      ∃ s, stride root links place step = .ok s ∧
        follow root s.links s.place (s.before ++ rest) = .ok target := by
  rw [follow_cons]
  cases stride root links place step with
  | error cause => simp [Except.bind]
  | ok s => simp [Except.bind]

/-! ## 3. Going down -/

/-- Is a component the name of an entry, and short enough to be one? -/
def IsEntryName (name : String) : Prop :=
  name ≠ "." ∧ name ≠ ".." ∧ name.utf8ByteSize ≤ maxNameBytes

instance (name : String) : Decidable (IsEntryName name) :=
  inferInstanceAs (Decidable (_ ∧ _ ∧ _))

/-- Under the name of an entry that is no link lies where the path goes on. -/
theorem stride_of_find? {root next : Node} {links : Nat} {place : List String} {name : String}
    {entries : Entries Node} (hname : IsEntryName name)
    (hplace : root.at? place = some (.directory entries))
    (hentry : entries.find? name = some next) (hnext : ∀ target, next ≠ .link target) :
    stride root links place name = .ok ⟨links, place ++ [name], []⟩ := by
  obtain ⟨hdot, hup, hsize⟩ := hname
  rw [Node.find?_eq_at? hplace] at hentry
  rw [stride, Node.shapeAt_of_at? hplace, Node.shapeAt_of_at? hentry]
  dsimp only [Node.shape]
  rw [if_neg hdot, if_neg hup, if_neg (Nat.not_lt.2 hsize)]
  cases next with
  | link target => exact absurd rfl (hnext target)
  | _ => rfl

/-- What has something below it is a directory with an entry on the way there, which is a link only
if it is all that there is. -/
theorem exists_entry_of_at? {root node : Node} {place rest : List String} {name : String}
    (h : root.at? (place ++ name :: rest) = some node) (hnode : ∀ target, node ≠ .link target) :
    ∃ (entries : Entries Node) (next : Node), root.at? place = some (.directory entries) ∧
      entries.find? name = some next ∧ ∀ target, next ≠ .link target := by
  obtain ⟨here, hhere, hbelow⟩ := Option.bind_eq_some_iff.1 (Node.at?_append _ _ _ ▸ h)
  obtain ⟨entries, next, rfl, hentry, hrest⟩ := Node.exists_of_at?_cons hbelow
  refine ⟨entries, next, hhere, hentry, ?_⟩
  -- Nothing lies below a link, so a link here would be the last name, which names none.
  rintro target rfl
  cases rest with
  | nil =>
    rw [Node.at?_nil] at hrest
    exact hnode target (Option.some.inj hrest).symm
  | cons _ _ => cases hrest

/-- What comes after the names of real directories is followed from the last of them. The last name
may also be that of a file. -/
theorem follow_names_append {root node : Node} {names : List String}
    (hnames : ∀ name ∈ names, IsEntryName name) {place : List String}
    (h : root.at? (place ++ names) = some node) (hnode : ∀ target, node ≠ .link target)
    (links : Nat) (rest : List String) :
    follow root links place (names ++ rest) = follow root links (place ++ names) rest := by
  induction names generalizing place with
  | nil => rw [List.nil_append, List.append_nil]
  | cons name after ih =>
    obtain ⟨hname, hafter⟩ := List.forall_mem_cons.1 hnames
    obtain ⟨entries, next, hplace, hentry, hnext⟩ := exists_entry_of_at? h hnode
    have hassoc : place ++ name :: after = (place ++ [name]) ++ after := List.append_cons _ _ _
    rw [hassoc] at h ⊢
    rw [List.cons_append, follow_cons, stride_of_find? hname hplace hentry hnext]
    exact ih hafter h

/-- The names of real directories lead down, and the last name may also be that of a file. -/
theorem follow_of_at? {root node : Node} {names : List String}
    (hnames : ∀ name ∈ names, IsEntryName name) {place : List String}
    (h : root.at? (place ++ names) = some node) (hnode : ∀ target, node ≠ .link target)
    (links : Nat) : follow root links place names = .ok (place ++ names) := by
  have hgo := follow_names_append hnames h hnode links []
  rwa [List.append_nil, follow_nil] at hgo

/-- A name that is not among the entries of a real directory leads nowhere, whatever comes after
it. -/
theorem follow_of_find?_eq_none {root : Node} {names after : List String} {name : String}
    {entries : Entries Node} (hnames : ∀ n ∈ names, IsEntryName n) (hname : IsEntryName name)
    {place : List String} (h : root.at? (place ++ names) = some (.directory entries))
    (hnone : entries.find? name = none) (links : Nat) :
    follow root links place (names ++ name :: after) = .error .missing := by
  obtain ⟨hdot, hup, hsize⟩ := hname
  rw [Node.find?_eq_at? h] at hnone
  have hshape : root.shapeAt (place ++ names ++ [name]) = none := by rw [Node.shapeAt, hnone]; rfl
  rw [follow_names_append hnames h (Node.directory_ne_link _), follow_cons, stride,
    Node.shapeAt_of_at? h, hshape]
  dsimp only [Node.shape]
  rw [if_neg hdot, if_neg hup, if_neg (Nat.not_lt.2 hsize)]
  rfl

/-- Names of real directories lead down from wherever a path leads. -/
theorem follow_append {root node : Node} {links : Nat} {place todo target : List String}
    {names : List String} (h : follow root links place todo = .ok target)
    (hnames : ∀ name ∈ names, IsEntryName name) (hnode : root.at? (target ++ names) = some node)
    (hlink : ∀ text, node ≠ .link text) :
    follow root links place (todo ++ names) = .ok (target ++ names) := by
  induction links, place, todo using follow_induction root with
  | nil links place =>
    obtain rfl : place = target := by simpa using h
    exact follow_of_at? hnames hnode hlink links
  | cons links place step rest ih =>
    obtain ⟨s, hs, hrest⟩ := follow_cons_eq_ok_iff.1 h
    refine follow_cons_eq_ok_iff.2 ⟨s, hs, ?_⟩
    -- What a link puts in the way comes before the rest, so the names stay at the end.
    have hassoc : s.before ++ rest.append names = (s.before ++ rest) ++ names :=
      (List.append_assoc _ _ _).symm
    rw [hassoc]
    exact ih s hs hrest

/-! ## 4. Asking a disk -/

theorem resolve_eq_ok_iff {disk : Disk} {path : String} {place : List String} :
    disk.resolve path = .ok place ↔
      '\x00' ∉ path.toList ∧ path ≠ "" ∧ path.utf8ByteSize ≤ maxPathBytes ∧
        follow disk.root maxLinks (start disk.here path) (steps path) = .ok place := by
  unfold resolve
  split
  · rename_i hnull
    simp [hnull]
  split
  · rename_i hempty
    simp [hempty]
  split
  · rename_i hlong
    simp [Nat.not_le.2 hlong]
  · rename_i hnull hempty hlong
    simp [hnull, hempty, Nat.not_lt.1 hlong]

theorem node_eq_ok_iff {disk : Disk} {path : String} {node : Node} :
    disk.node path = .ok node ↔
      ∃ place, disk.resolve path = .ok place ∧ disk.root.at? place = some node := by
  unfold Disk.node
  cases disk.resolve path with
  | error cause => simp
  | ok place => cases h : disk.root.at? place <;> simp [h]

/-- A path that is too long leads nowhere. -/
theorem node_of_long {disk : Disk} {path : String} (h : maxPathBytes < path.utf8ByteSize)
    (node : Node) : disk.node path ≠ .ok node := by
  intro hnode
  obtain ⟨place, hresolve, -⟩ := node_eq_ok_iff.1 hnode
  obtain ⟨-, -, hsize, -⟩ := resolve_eq_ok_iff.1 hresolve
  omega

theorem isFile_iff {disk : Disk} {path : String} :
    disk.isFile path = true ↔ ∃ content, disk.node path = .ok (.file content) := by
  unfold isFile
  rcases disk.node path with cause | (content | target | entries) <;> simp [Node.isFile]

theorem isDirectory_iff {disk : Disk} {path : String} :
    disk.isDirectory path = true ↔ ∃ entries, disk.node path = .ok (.directory entries) := by
  unfold isDirectory
  rcases disk.node path with cause | (content | target | entries) <;> simp [Node.isDirectory]

theorem list_eq_ok_iff {disk : Disk} {path : String} {entries : Entries Node} :
    disk.list path = .ok entries ↔ disk.node path = .ok (.directory entries) := by
  unfold list
  rcases disk.node path with cause | (content | target | entries) <;> simp

theorem read_eq_ok {disk : Disk} {path : String} {content : ByteArray}
    (h : disk.node (Path.tidy path) = .ok (.file content)) : disk.read path = .ok content := by
  unfold Disk.read
  rw [h]

/-- The slash is the root directory. -/
theorem node_slash {disk : Disk} {entries : Entries Node} (h : disk.root = .directory entries) :
    disk.node "/" = .ok (.directory entries) := by
  have hsteps : steps "/" = ["."] := by decide
  have hstart : start disk.here "/" = [] := if_pos (Path.isAbsolute_iff.2 (by decide))
  have hroot : disk.root.at? [] = some (.directory entries) := congrArg some h
  have hfollow : follow disk.root maxLinks (start disk.here "/") (steps "/") = .ok [] := by
    rw [hsteps, hstart, follow_cons, stride, Node.shapeAt_of_at? hroot]
    exact follow_nil _ _ _
  exact node_eq_ok_iff.2 ⟨[], resolve_eq_ok_iff.2 ⟨by decide, by decide, by decide, hfollow⟩, hroot⟩

/-- A path that spells names and nothing else. -/
def SpellsOut (path : String) (names : List String) : Prop :=
  '\x00' ∉ path.toList ∧ path ≠ "" ∧ path.utf8ByteSize ≤ maxPathBytes ∧
    steps path = names ∧ ∀ name ∈ names, IsEntryName name

instance (path : String) (names : List String) : Decidable (SpellsOut path names) :=
  inferInstanceAs (Decidable (_ ∧ _ ∧ _ ∧ _ ∧ _))

theorem start_nil (path : String) : start [] path = [] := by
  unfold start
  split <;> rfl

/-- A path that begins at the root directory leads where its components lead. -/
theorem resolve_of_follow {disk : Disk} {path : String} {todo place : List String}
    (hstart : start disk.here path = [])
    (hpath : '\x00' ∉ path.toList ∧ path ≠ "" ∧ path.utf8ByteSize ≤ maxPathBytes)
    (hsteps : steps path = todo) (h : follow disk.root maxLinks [] todo = .ok place) :
    disk.resolve path = .ok place := by
  refine resolve_eq_ok_iff.2 ⟨hpath.1, hpath.2.1, hpath.2.2, ?_⟩
  rwa [hstart, hsteps]

theorem resolve_of_spellsOut {disk : Disk} {path : String} {names : List String} {node : Node}
    (hhere : disk.here = []) (hpath : SpellsOut path names) (h : disk.root.at? names = some node)
    (hnode : ∀ target, node ≠ .link target) : disk.resolve path = .ok names := by
  obtain ⟨hnull, hempty, hsize, hsteps, hnames⟩ := hpath
  have hstart : start disk.here path = [] := by rw [hhere, start_nil]
  exact resolve_of_follow hstart ⟨hnull, hempty, hsize⟩ hsteps (follow_of_at? hnames h hnode _)

/-- A path that spells the names of real directories leads to what lies under these names. -/
theorem node_of_spellsOut {disk : Disk} {path : String} {names : List String} {node : Node}
    (hhere : disk.here = []) (hpath : SpellsOut path names) (h : disk.root.at? names = some node)
    (hnode : ∀ target, node ≠ .link target) : disk.node path = .ok node :=
  node_eq_ok_iff.2 ⟨names, resolve_of_spellsOut hhere hpath h hnode, h⟩

/-- A path that spells more names than there are leads nowhere. -/
theorem node_of_spellsOut_of_find?_eq_none {disk : Disk} {path name : String}
    {names after : List String} {entries : Entries Node} (hhere : disk.here = [])
    (hpath : SpellsOut path (names ++ name :: after))
    (h : disk.root.at? names = some (.directory entries)) (hnone : entries.find? name = none) :
    disk.node path = .error .missing := by
  obtain ⟨hnull, hempty, hsize, hsteps, hnames⟩ := hpath
  have hresolve : disk.resolve path = .error .missing := by
    rw [resolve, if_neg hnull, if_neg hempty, if_neg (Nat.not_lt.2 hsize), hsteps, hhere, start_nil]
    exact follow_of_find?_eq_none (fun n hn => hnames n (List.mem_append_left _ hn))
      (hnames name (List.mem_append_right _ List.mem_cons_self)) h hnone _
  rw [node, hresolve]

/-! ## 5. Disks that look alike -/

/-- No path can tell two disks apart: their files may hold different things, and that is all. -/
structure Alike (disk other : Disk) : Prop where
  here : other.here = disk.here
  root : other.root.Alike disk.root

theorem isDirectory_iff_shape {disk : Disk} {path : String} :
    disk.isDirectory path = true ↔ (disk.node path).map Node.shape = .ok .directory := by
  unfold isDirectory
  rcases disk.node path with cause | (content | target | entries) <;>
    simp [Except.map, Node.isDirectory, Node.shape]

theorem holds_iff_shape {disk : Disk} {path : String} :
    disk.holds path = true ↔ ∃ shape, (disk.node path).map Node.shape = .ok shape := by
  unfold holds
  cases disk.node path <;> simp [Except.map]

namespace Alike

variable {disk other : Disk}

/-- On disks that look alike a path leads to the same place. -/
theorem resolve_eq (h : disk.Alike other) (path : String) :
    other.resolve path = disk.resolve path := by
  unfold resolve
  rw [h.here, follow_congr h.root]

/-- A path names the same on disks that look alike, up to what a file holds. -/
theorem shape_node (h : disk.Alike other) (path : String) :
    (other.node path).map Node.shape = (disk.node path).map Node.shape := by
  unfold node
  rw [h.resolve_eq]
  cases disk.resolve path with
  | error cause => rfl
  | ok place =>
    have hshape := h.root place
    unfold Node.shapeAt at hshape
    dsimp only
    -- Either nothing lies there on both disks, or something of the same kind does.
    cases hother : other.root.at? place <;> cases hdisk : disk.root.at? place <;>
      rw [hother, hdisk] at hshape
    · cases hshape
    · cases hshape
    · exact congrArg Except.ok (Option.some.inj hshape)

theorem isDirectory_eq (h : disk.Alike other) (path : String) :
    other.isDirectory path = disk.isDirectory path := by
  rw [Bool.eq_iff_iff, isDirectory_iff_shape, isDirectory_iff_shape, h.shape_node]

theorem holds_eq (h : disk.Alike other) (path : String) : other.holds path = disk.holds path := by
  rw [Bool.eq_iff_iff, holds_iff_shape, holds_iff_shape, h.shape_node]

end Alike

end Disk

end LintFront
