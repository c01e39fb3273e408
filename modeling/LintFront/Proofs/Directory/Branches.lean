import LintFront.Directory.Contents
import LintFront.Proofs.FileTree.Following
import LintFront.Proofs.FileTree.Names
import Mathlib.Data.List.Nodup
/-!
# What a walk visits

A walk is a recursion on the tree that sorts what lies below a node, and its result is a list. Here
it is described by the sequences of names that are in the list: those under which a real directory
lies and none of which is skipped. For this the names of a directory have to be distinct, since the
walk goes over all entries and a name is found at the first.

## Main statements

`Node.mem_branches`: which sequences of names a walk visits. `Node.pairwise_precedes_branches`: in
which order. `Directory.mem_walk`: which paths. `Directory.exists_branches_of_expand`: which
directories are visited as units.
-/

namespace LintFront

namespace Node

/-! ## 1. The branches of a node -/

variable {skip : String → Bool}

theorem mem_branchesOf {entries : Entries Node} {name : String} {branches : List (List String)} :
    (name, branches) ∈ branchesOf skip entries ↔
      ∃ child, (name, child) ∈ entries ∧ skip name = false ∧ branches = child.branches skip := by
  induction entries with
  | nil => simp [branchesOf]
  | cons e rest ih =>
    obtain ⟨first, node⟩ := e
    rw [branchesOf]
    by_cases hskip : skip first = true
    · rw [if_pos hskip, ih]
      constructor
      · rintro ⟨child, hmem, hname, hbranches⟩
        exact ⟨child, List.mem_cons_of_mem _ hmem, hname, hbranches⟩
      · rintro ⟨child, hmem, hname, hbranches⟩
        rcases List.mem_cons.1 hmem with heq | hmem
        · rw [(Prod.mk.inj heq).1, hskip] at hname
          cases hname
        · exact ⟨child, hmem, hname, hbranches⟩
    · rw [if_neg hskip, List.mem_cons, ih]
      constructor
      · rintro (heq | ⟨child, hmem, hname, hbranches⟩)
        · obtain ⟨rfl, rfl⟩ := Prod.mk.inj heq
          exact ⟨node, List.mem_cons_self, by simpa using hskip, rfl⟩
        · exact ⟨child, List.mem_cons_of_mem _ hmem, hname, hbranches⟩
      · rintro ⟨child, hmem, hname, hbranches⟩
        rcases List.mem_cons.1 hmem with heq | hmem
        · obtain ⟨rfl, rfl⟩ := Prod.mk.inj heq
          exact .inl (by rw [hbranches])
        · exact .inr ⟨child, hmem, hname, hbranches⟩

theorem mem_branches_directory {entries : Entries Node} {names : List String} :
    names ∈ (directory entries).branches skip ↔
      names = [] ∨ ∃ name rest child, names = name :: rest ∧ (name, child) ∈ entries ∧
        skip name = false ∧ rest ∈ child.branches skip := by
  rw [branches, List.mem_cons, List.mem_flatMap]
  apply or_congr Iff.rfl
  constructor
  · rintro ⟨⟨name, below⟩, hmem, hnames⟩
    rw [List.mem_mergeSort, mem_branchesOf] at hmem
    obtain ⟨child, hchild, hname, rfl⟩ := hmem
    obtain ⟨rest, hrest, rfl⟩ := List.mem_map.1 hnames
    exact ⟨name, rest, child, rfl, hchild, hname, hrest⟩
  · rintro ⟨name, rest, child, rfl, hchild, hname, hrest⟩
    refine ⟨(name, child.branches skip), ?_, List.mem_map.2 ⟨rest, hrest, rfl⟩⟩
    rw [List.mem_mergeSort, mem_branchesOf]
    exact ⟨child, hchild, hname, rfl⟩

/-- A walk visits the real directories to which names lead that are not skipped. -/
theorem mem_branches {node : Node} (h : node.WellFormed) {names : List String} :
    names ∈ node.branches skip ↔
      (∃ entries, node.at? names = some (directory entries)) ∧
        ∀ name ∈ names, skip name = false := by
  induction names generalizing node with
  | nil =>
    cases node <;> simp [branches]
  | cons name rest ih =>
    cases h with
    | file content => simp [branches, at?_cons, entries, Entries.find?]
    | link target => simp [branches, at?_cons, entries, Entries.find?]
    | directory distinct named below =>
      rw [mem_branches_directory, at?_cons, List.forall_mem_cons]
      constructor
      · rintro (hnil | ⟨_, _, child, heq, hchild, hname, hrest⟩)
        · cases hnil
        · obtain ⟨rfl, rfl⟩ := List.cons.inj heq
          obtain ⟨hdirectory, hskip⟩ := (ih (below _ hchild)).1 hrest
          refine ⟨?_, hname, hskip⟩
          rw [Node.entries, (Entries.mem_iff_find? distinct).1 hchild]
          exact hdirectory
      · rintro ⟨⟨found, hfound⟩, hname, hskip⟩
        obtain ⟨child, hchild, hbelow⟩ := Option.bind_eq_some_iff.1 hfound
        have hmem := (Entries.mem_iff_find? distinct).2 hchild
        have hrest := (ih (below _ hmem)).2 ⟨⟨found, hbelow⟩, hskip⟩
        exact .inr ⟨name, rest, child, rfl, hmem, hname, hrest⟩

theorem map_fst_branchesOf_sublist (skip : String → Bool) (entries : Entries Node) :
    ((branchesOf skip entries).map (·.1)).Sublist entries.names := by
  induction entries with
  | nil => exact List.Sublist.refl _
  | cons e rest ih =>
    obtain ⟨name, child⟩ := e
    rw [branchesOf]
    split
    · exact ih.cons name
    · exact ih.cons_cons name

/-! ## 2. The order of a walk -/

/-- A walk comes to `names` before `names'`: to a directory before all that lies below it, and to
what lies below a directory under one name before what lies there under a greater one. -/
inductive Precedes : (names names' : List String) → Prop where
  | below (above : List String) (name : String) (rest : List String) :
      Precedes above (above ++ name :: rest)
  | beside (above : List String) {a b : String} (h : a < b) (rest rest' : List String) :
      Precedes (above ++ a :: rest) (above ++ b :: rest')

theorem Precedes.cons (name : String) {names names' : List String} (h : Precedes names names') :
    Precedes (name :: names) (name :: names') := by
  cases h with
  | below _ first rest => exact .below (name :: names) first rest
  | beside above h rest rest' => exact .beside (name :: above) h rest rest'

/-- In a walk sequences of names come in the order of their names, the first names counting most. -/
theorem Precedes.lt {names names' : List String} (h : Precedes names names') : names < names' := by
  cases h with
  | below _ name rest =>
    induction names with
    | nil => exact List.nil_lt_cons _ _
    | cons first names ih => exact List.cons_lt_cons_self.2 ih
  | beside above h rest rest' =>
    induction above with
    | nil => exact List.Lex.rel h
    | cons first above ih => exact List.cons_lt_cons_self.2 ih

theorem Precedes.ne {names names' : List String} (h : Precedes names names') : names ≠ names' := by
  rintro rfl
  exact List.lt_irrefl names h.lt

/-- What lies below the entries of a directory is visited in the order of their names. -/
theorem pairwise_sorted_branchesOf {entries : Entries Node} (distinct : entries.names.Nodup) :
    ((branchesOf skip entries).mergeSort fun a b => a.1 ≤ b.1).Pairwise fun a b => a.1 < b.1 :=
  pairwise_lt_mergeSort Prod.fst (distinct.sublist (map_fst_branchesOf_sublist skip entries))

/-- A walk visits a directory first, and what lies below it in the order of the names. -/
theorem pairwise_precedes_branches {node : Node} (h : node.WellFormed) :
    (node.branches skip).Pairwise Precedes := by
  induction h with
  | file content => exact List.Pairwise.nil
  | link target => exact List.Pairwise.nil
  | @directory entries distinct named below ih =>
    rw [branches, List.pairwise_cons, List.pairwise_flatMap]
    refine ⟨?first, fun e he => ?inside, (pairwise_sorted_branchesOf distinct).imp ?across⟩
    case first =>
      intro names hmem
      obtain ⟨e, -, hnames⟩ := List.mem_flatMap.1 hmem
      obtain ⟨rest, -, rfl⟩ := List.mem_map.1 hnames
      exact .below [] e.1 rest
    case inside =>
      obtain ⟨name, branches⟩ := e
      rw [List.mem_mergeSort, mem_branchesOf] at he
      obtain ⟨child, hchild, -, rfl⟩ := he
      exact List.pairwise_map.2 ((ih _ hchild).imp (Precedes.cons name))
    case across =>
      intro a b hlt names ha names' hb
      obtain ⟨rest, -, rfl⟩ := List.mem_map.1 ha
      obtain ⟨rest', -, rfl⟩ := List.mem_map.1 hb
      exact .beside [] hlt rest rest'

/-- A walk visits nothing twice. -/
theorem nodup_branches {node : Node} (h : node.WellFormed) : (node.branches skip).Nodup :=
  (pairwise_precedes_branches h).imp Precedes.ne

/-- Sequences of names can be walked in one order only. -/
theorem eq_of_precedes {branches branches' : List (List String)}
    (h : branches.Pairwise Precedes) (h' : branches'.Pairwise Precedes)
    (hmem : ∀ names, names ∈ branches ↔ names ∈ branches') : branches = branches' := by
  have hperm : branches.Perm branches' :=
    (List.perm_ext_iff_of_nodup (h.imp Precedes.ne) (h'.imp Precedes.ne)).2 hmem
  refine hperm.eq_of_pairwise (fun names names' _ _ hlt hgt => ?_) h h'
  exact absurd hgt.lt (List.lt_asymm hlt.lt)

end Node

namespace Directory

/-! ## 3. The paths of a walk -/

variable {disk : Disk} {excludes : List String} {root : String} {node : Node}

/-- A walk from a directory visits the paths of its branches, as far as they can be used. -/
theorem walk_of_node (h : disk.node root = .ok node) :
    walk disk excludes root =
      .ok ((((node.branches (isSkipped excludes)).map (descend root)).filter
        (·.utf8ByteSize ≤ Disk.maxPathBytes)).map Path.normal) := by
  rw [walk, h]

/-- If no path is too long a walk visits the path of every branch. -/
theorem mem_walk (hnode : node.WellFormed) (h : disk.node root = .ok node)
    (hfits : ∀ names entries, node.at? names = some (.directory entries) →
      (∀ name ∈ names, isSkipped excludes name = false) →
      (descend root names).utf8ByteSize ≤ Disk.maxPathBytes) :
    ∃ paths, walk disk excludes root = .ok paths ∧ ∀ path, path ∈ paths ↔
      ∃ names entries, node.at? names = some (.directory entries) ∧
        (∀ name ∈ names, isSkipped excludes name = false) ∧
        path = Path.normal (descend root names) := by
  refine ⟨_, walk_of_node h, ?_⟩
  intro path
  rw [List.mem_map]
  constructor
  · rintro ⟨long, hlong, rfl⟩
    obtain ⟨hmem, -⟩ := List.mem_filter.1 hlong
    obtain ⟨names, hnames, rfl⟩ := List.mem_map.1 hmem
    obtain ⟨⟨entries, hentries⟩, hskip⟩ := (Node.mem_branches hnode).1 hnames
    exact ⟨names, entries, hentries, hskip, rfl⟩
  · rintro ⟨names, entries, hentries, hskip, rfl⟩
    refine ⟨descend root names, List.mem_filter.2 ⟨?_, ?_⟩, rfl⟩
    · exact List.mem_map.2 ⟨names, (Node.mem_branches hnode).2 ⟨⟨entries, hentries⟩, hskip⟩, rfl⟩
    · exact decide_eq_true (hfits names entries hentries hskip)

/-! ## 4. Judged paths -/

section

variable {ε : Type} {accept : String → Except ε Bool} {paths found : List String}

/-- Where every path can be judged the accepted ones are those with a good judgement. -/
theorem accepted_eq_filter {good : String → Bool}
    (h : ∀ path ∈ paths, accept path = .ok (good path)) :
    accepted accept paths = .ok (paths.filter good) := by
  induction paths with
  | nil => rfl
  | cons path rest ih =>
    rw [accepted, h path List.mem_cons_self, ih fun p hp => h p (List.mem_cons_of_mem _ hp)]
    cases hgood : good path with
    | true => rw [List.filter_cons_of_pos hgood]; rfl
    | false => rw [List.filter_cons_of_neg (by simp [hgood])]; rfl

/-- Where the accepted paths can be told, every path can be judged. -/
theorem exists_judgement_of_accepted (h : accepted accept paths = .ok found) :
    ∀ path ∈ paths, ∃ yes, accept path = .ok yes := by
  induction paths generalizing found with
  | nil => exact List.forall_mem_nil _
  | cons path rest ih =>
    rw [accepted] at h
    cases hpath : accept path with
    | error cause =>
      rw [hpath] at h
      cases h
    | ok yes =>
      rw [hpath] at h
      cases hrest : accepted accept rest with
      | error cause =>
        rw [hrest] at h
        cases h
      | ok others => exact List.forall_mem_cons.2 ⟨⟨yes, hpath⟩, ih hrest⟩

/-- Is a path judged, and the judgement a good one? -/
def isAccepted (accept : String → Except ε Bool) (path : String) : Bool :=
  (accept path).toOption.getD false

theorem isAccepted_iff {path : String} :
    isAccepted accept path = true ↔ accept path = .ok true := by
  unfold isAccepted
  cases accept path <;> simp [Except.toOption]

/-- The accepted paths can be told where every path can be judged, and are those with a good
judgement. -/
theorem accepted_eq_ok_iff : accepted accept paths = .ok found ↔
    (∀ path ∈ paths, ∃ yes, accept path = .ok yes) ∧ found = paths.filter (isAccepted accept) := by
  have htold : (∀ path ∈ paths, ∃ yes, accept path = .ok yes) →
      accepted accept paths = .ok (paths.filter (isAccepted accept)) := by
    intro hjudged
    apply accepted_eq_filter
    intro path hpath
    obtain ⟨yes, hyes⟩ := hjudged path hpath
    rw [isAccepted, hyes]
    rfl
  constructor
  · intro h
    have hjudged := exists_judgement_of_accepted h
    exact ⟨hjudged, Except.ok.inj (h.symm.trans (htold hjudged))⟩
  · rintro ⟨hjudged, rfl⟩
    exact htold hjudged

end

/-! ## 5. The directories that are visited as units -/

/-- The names lead down from `root` to a directory that a walk visits as a unit. -/
structure Reaches (disk : Disk) (excludes : List String) (root : String) (names : List String) :
    Prop where
  /-- The names lead through real directories. -/
  leads : ∃ node entries, disk.node root = .ok node ∧ node.at? names = some (.directory entries)
  kept : ∀ name ∈ names, isSkipped excludes name = false
  fits : (descend root names).utf8ByteSize ≤ Disk.maxPathBytes
  buildable : isBuildable disk (Path.normal (descend root names)) = .ok true

/-- The names that lead down to a visited directory are names. -/
theorem Reaches.isName (hroot : disk.root.WellFormed) {names : List String}
    (h : Reaches disk excludes root names) : ∀ name ∈ names, Node.IsName name := by
  obtain ⟨node, entries, hnode, hat⟩ := h.leads
  obtain ⟨place, -, hplace⟩ := Disk.node_eq_ok_iff.1 hnode
  exact (hroot.of_at? hplace).isName_of_at? hat

/-- The directories that are visited as units, each by the names that lead to it. -/
theorem exists_branches_of_expand (hroot : disk.root.WellFormed) {paths : List String}
    (h : expand disk excludes root = .ok paths) :
    ∃ branches : List (List String), branches.Nodup ∧
      (∀ names, names ∈ branches ↔ Reaches disk excludes root names) ∧
      paths = branches.map fun names => Path.normal (descend root names) := by
  cases hnode : disk.node root with
  | error cause =>
    -- A root that is not there is walked over in silence.
    have hnone : paths = [] := by
      rw [expand, walk, hnode] at h
      cases cause <;> first | exact (Except.ok.inj h).symm | cases h
    refine ⟨[], List.nodup_nil, fun names => ?_, hnone⟩
    refine ⟨fun hmem => absurd hmem List.not_mem_nil, fun hreaches => ?_⟩
    obtain ⟨node, entries, hok, -⟩ := hreaches.leads
    rw [hnode] at hok
    cases hok
  | ok node =>
    -- The list of paths is the image of a list of branches, so all that is done to the paths can be
    -- done to the branches.
    obtain ⟨place, -, hplace⟩ := Disk.node_eq_ok_iff.1 hnode
    have hwell := hroot.of_at? hplace
    rw [expand, walk_of_node hnode, List.filter_map, List.map_map] at h
    obtain ⟨-, hpaths⟩ := accepted_eq_ok_iff.1 h
    rw [List.filter_map] at hpaths
    refine ⟨_, ((Node.nodup_branches hwell).filter _).filter _, fun names => ?_, hpaths⟩
    rw [List.mem_filter, List.mem_filter, Node.mem_branches hwell]
    simp only [Function.comp_apply, isAccepted_iff, decide_eq_true_eq]
    constructor
    · rintro ⟨⟨⟨⟨entries, hat⟩, hkept⟩, hfits⟩, hbuildable⟩
      exact ⟨⟨node, entries, hnode, hat⟩, hkept, hfits, hbuildable⟩
    · rintro ⟨⟨node', entries, hok, hat⟩, hkept, hfits, hbuildable⟩
      obtain rfl := Except.ok.inj (hnode.symm.trans hok)
      exact ⟨⟨⟨⟨entries, hat⟩, hkept⟩, hfits⟩, hbuildable⟩

end Directory

end LintFront
