import LintFront.Proofs.Path.Spelling
/-!
# Absolute spellings

Seen from a directory every path has an absolute spelling, and the way from one path to another is
told by their absolute spellings. Where no parent component stands in the way this is a matter of
components alone: those of a relative path come after those of the directory. So a way down from a
path goes down by the same names in the absolute spelling, and the names of the way are recovered
from its two ends.

## Main statements

`Path.parse_absolute`: the components of an absolute spelling. `Path.relativeNames_descend`: the way
to what lies below a path is the names that lead down to it.
-/

namespace LintFront.Path

variable {base s : String} {names : List String}

/-! ## 1. Normal spellings -/

theorem wellSpelled_collapse {p : Path} (h : p.WellSpelled) : p.collapse.WellSpelled where
  anchor_le := h.anchor_le
  components := fun name hname => h.components name (mem_names_collapse hname)

theorem parse_normal (s : String) : parse (normal s) = (parse s).collapse :=
  parse_text (wellSpelled_collapse (wellSpelled_parse s))

theorem parse_normal_of_notMem (h : ".." ∉ (parse s).names) : parse (normal s) = parse s := by
  rw [parse_normal, collapse_of_notMem h]

/-- Components that were kept when parents were taken back are kept once more. -/
theorem foldl_climb_reverse_climb {anchored : Bool} {soFar : List String} (name : String)
    (h : soFar.reverse.foldl (climb anchored) [] = soFar) :
    (climb anchored soFar name).reverse.foldl (climb anchored) [] = climb anchored soFar name := by
  have hpushed : (name :: soFar).reverse.foldl (climb anchored) [] = climb anchored soFar name := by
    rw [List.reverse_cons, List.foldl_append, h]
    rfl
  by_cases hup : name = ".."
  · subst hup
    cases soFar with
    | nil => cases anchored <;> rfl
    | cons last rest =>
      by_cases hlast : last = ".."
      · have hkept : climb anchored (last :: rest) ".." = ".." :: last :: rest := by
          rw [climb, if_pos rfl]
          exact if_pos hlast
        rw [hkept] at hpushed ⊢
        exact hpushed
      · have htaken : climb anchored (last :: rest) ".." = rest := by
          rw [climb, if_pos rfl]
          exact if_neg hlast
        rw [htaken]
        -- The last component was kept, and so was what comes before it.
        rw [List.reverse_cons, List.foldl_append] at h
        change climb anchored (rest.reverse.foldl (climb anchored) []) last = last :: rest at h
        rw [climb_of_ne hlast] at h
        exact (List.cons.inj h).2
  · rw [climb_of_ne hup] at hpushed ⊢
    exact hpushed

theorem collapse_collapse (p : Path) : p.collapse.collapse = p.collapse := by
  have hfold : (p.names.foldl (climb (p.anchor ≠ 0)) []).reverse.foldl (climb (p.anchor ≠ 0)) [] =
      p.names.foldl (climb (p.anchor ≠ 0)) [] := by
    induction p.names using List.reverseRecOn with
    | nil => rfl
    | append_singleton names name ih =>
      rw [List.foldl_append]
      exact foldl_climb_reverse_climb name ih
  show Path.mk p.anchor (List.reverse (List.foldl _ [] _)) = Path.mk p.anchor _
  exact congrArg (fun soFar => Path.mk p.anchor soFar.reverse) hfold

/-- The normal spelling is its own. -/
theorem normal_normal (s : String) : normal (normal s) = normal s := by
  rw [normal, parse_normal, collapse_collapse, normal]

/-- A normal spelling is its own shortest spelling. -/
theorem tidy_normal (s : String) : tidy (normal s) = normal s := by
  rw [tidy, parse_normal, normal]

/-! ## 2. Absolute spellings -/

theorem tidy_absolute (base s : String) : tidy (absolute base s) = absolute base s := tidy_normal _

/-- The components of a relative path come after those of the directory from which it is seen. -/
theorem parse_absolute (hbase : ".." ∉ (parse base).names) (hs : ".." ∉ (parse s).names) :
    parse (absolute base s) =
      if isAbsolute s then parse s
      else ⟨(parse base).anchor, (parse base).names ++ (parse s).names⟩ := by
  rw [absolute]
  by_cases h : isAbsolute s = true
  · rw [if_pos h, if_pos h, parse_normal_of_notMem hs]
  · have hjoin := parse_join_of_relative base h
    have hup : ".." ∉ (parse (join base s)).names := by
      rw [hjoin, List.mem_append]
      exact not_or.2 ⟨hbase, hs⟩
    rw [if_neg h, if_neg h, parse_normal_of_notMem hup, hjoin]

theorem absolute_of_isAbsolute (h : isAbsolute s = true) (hs : ".." ∉ (parse s).names) :
    absolute base s = tidy s := by
  rw [absolute, if_pos h, normal_of_notMem hs]

/-- Two spellings of the same components have the same absolute spelling. -/
theorem absolute_congr {s' : String} (hbase : ".." ∉ (parse base).names)
    (hs : ".." ∉ (parse s).names) (h : parse s = parse s') :
    absolute base s = absolute base s' := by
  rw [← tidy_absolute base s, ← tidy_absolute base s', tidy, tidy, parse_absolute hbase hs,
    parse_absolute hbase (h ▸ hs), isAbsolute_congr (congrArg anchor h), h]

/-- Nothing is above an anchor, so no parent component is left behind one. -/
theorem notMem_collapse {p : Path} (h : p.anchor ≠ 0) : ".." ∉ p.collapse.names := by
  have hclimb : ∀ (soFar : List String) (name : String), ".." ∉ soFar →
      ".." ∉ climb true soFar name := by
    intro soFar name hnot hmem
    unfold climb at hmem
    split at hmem
    · cases soFar with
      | nil => cases hmem
      | cons last rest =>
        dsimp only at hmem
        split at hmem
        · rename_i hlast
          exact hnot (hlast ▸ List.mem_cons_self)
        · exact hnot (List.mem_cons_of_mem _ hmem)
    · rename_i hname
      rcases List.mem_cons.1 hmem with hsame | hmem
      · exact hname hsame.symm
      · exact hnot hmem
  -- The invariant of the fold is that no parent component is among those that were kept.
  have hfold : ∀ (names soFar : List String), ".." ∉ soFar →
      ".." ∉ names.foldl (climb true) soFar := by
    intro names
    induction names with
    | nil => exact fun soFar hnot => hnot
    | cons name names ih => exact fun soFar hnot => ih _ (hclimb soFar name hnot)
  have hanchored : decide (p.anchor ≠ 0) = true := decide_eq_true h
  rw [collapse, hanchored, List.mem_reverse]
  exact hfold p.names [] List.not_mem_nil

/-- Seen from an absolute directory the absolute spelling of any path is absolute, without parent
components. -/
theorem noParents_absolute (hbase : isAbsolute base = true) (s : String) :
    isAbsolute (absolute base s) = true ∧ ".." ∉ (parse (absolute base s)).names := by
  have hanchor : (parse (if isAbsolute s then s else join base s)).anchor ≠ 0 := by
    by_cases h : isAbsolute s = true
    · rw [if_pos h]
      exact isAbsolute_iff_anchor.1 h
    · rw [if_neg h, parse_join_of_relative base h]
      dsimp only
      exact isAbsolute_iff_anchor.1 hbase
  have hparse : parse (absolute base s) =
      (parse (if isAbsolute s then s else join base s)).collapse := parse_normal _
  constructor
  · rw [isAbsolute_iff_anchor, hparse, anchor_collapse]
    exact hanchor
  · rw [hparse]
    exact notMem_collapse hanchor

/-! ## 3. Ways down -/

section

variable (hbase : ".." ∉ (parse base).names) (hs : ".." ∉ (parse s).names)
  (hnames : ∀ name ∈ names, Node.IsName name)

include hnames

theorem parse_descend_of_isName (s : String) :
    parse (names.foldl join s) = ⟨(parse s).anchor, (parse s).names ++ names⟩ :=
  parse_descend s fun name hname => isComponent_of_isName (hnames name hname)

/-- A way down goes down by the same names in the normal spelling. -/
theorem collapse_parse_descend (s : String) :
    (parse (names.foldl join s)).collapse =
      ⟨(parse s).anchor, (parse s).collapse.names ++ names⟩ := by
  have hparents : ".." ∉ names := fun hmem => (hnames _ hmem).2.2.1 rfl
  rw [parse_descend_of_isName hnames, collapse, collapse, List.foldl_append,
    foldl_climb_of_notMem hparents, List.reverse_append, List.reverse_reverse]

include hs

theorem notMem_descend : ".." ∉ (parse (names.foldl join s)).names := by
  rw [parse_descend_of_isName hnames, List.mem_append]
  rintro (hmem | hmem)
  · exact hs hmem
  · exact (hnames _ hmem).2.2.1 rfl

include hbase

/-- A way down goes down by the same names in the absolute spelling. -/
theorem parse_absolute_descend :
    parse (absolute base (names.foldl join s)) =
      ⟨(parse (absolute base s)).anchor, (parse (absolute base s)).names ++ names⟩ := by
  have hparse := parse_descend_of_isName hnames s
  have habsolute : isAbsolute (names.foldl join s) = isAbsolute s :=
    isAbsolute_congr (by rw [hparse])
  rw [parse_absolute hbase (notMem_descend hs hnames), parse_absolute hbase hs, habsolute, hparse]
  split
  · rfl
  · rw [List.append_assoc]

end

/-- A name below a shortest spelling is a shortest spelling, unless there is but an anchor or a dot
before it. -/
theorem tidy_join (hs : tidy s = s) (hne : (parse s).names ≠ []) {name : String}
    (hname : IsComponent name) : tidy (join s name) = join s name := by
  have hends : EndsInPiece s := by
    rw [← hs]
    exact endsInPiece_text (wellSpelled_parse s).components hne
  have htext : s = slashes (parse s).anchor ++ "/".intercalate (parse s).names := by
    rw [← text_of_names hne]
    exact hs.symm
  rw [tidy, parse_join s hname, text_of_names (List.append_ne_nil_of_left_ne_nil hne _),
    String.intercalate_append_of_ne_nil hne (List.cons_ne_nil _ _), String.intercalate_singleton,
    join_of_endsInPiece hends hname.not_isAbsolute, ← String.append_assoc, ← String.append_assoc,
    ← htext]

/-! ## 4. The way between two paths -/

theorem dropShared_append (l names : List String) : dropShared l (l ++ names) = ([], names) := by
  induction l with
  | nil => cases names <;> rfl
  | cons a l ih => rw [List.cons_append, dropShared, if_pos rfl, ih]

theorem relativeNames_of_absoluteNames {start : String}
    (h : absoluteNames base s = absoluteNames base start ++ names) :
    relativeNames base s start = names := by
  rw [relativeNames, h, dropShared_append]
  rfl

/-- The way to what lies below a path is the names that lead down to it. -/
theorem relativeNames_descend (hbase : ".." ∉ (parse base).names) (hs : ".." ∉ (parse s).names)
    (hnames : ∀ name ∈ names, Node.IsName name) :
    relativeNames base (normal (names.foldl join s)) s = names := by
  apply relativeNames_of_absoluteNames
  have hup := notMem_descend hs hnames
  have hparse := parse_normal_of_notMem hup
  rw [absoluteNames, absolute_congr hbase (hparse ▸ hup) hparse,
    parse_absolute_descend hbase hs hnames]
  rfl

/-- The way between two paths is spelled as a relative path of its components. -/
theorem relative_eq_text (base s start : String) :
    relative base s start = text ⟨0, relativeNames base s start⟩ := by
  unfold relative
  rw [text]
  cases relativeNames base s start with
  | nil => rfl
  | cons name rest =>
    rw [if_neg (by simp)]
    exact String.empty_append.symm

end LintFront.Path
