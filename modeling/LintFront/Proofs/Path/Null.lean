import LintFront.Proofs.Path.Spelling
/-!
# Paths without null characters

No path may hold a null character, and what is to be done with one that does is never looked at any
further. So it matters that none comes in: whatever is done to spellings, every character of the
result is a slash, a dot, or a character of what was there before.

## Main statements

`Path.NullFree.normal`, `Path.NullFree.join`, `Path.NullFree.relative`: null characters do not come
in when paths are respelled.
-/

namespace LintFront.Path

/-- Is a text free of null characters? -/
def NullFree (s : String) : Prop := '\x00' ∉ s.toList

instance (s : String) : Decidable (NullFree s) := inferInstanceAs (Decidable (¬_))

theorem nullFree_append {a b : String} : NullFree (a ++ b) ↔ NullFree a ∧ NullFree b := by
  rw [NullFree, String.toList_append, List.mem_append, not_or, NullFree, NullFree]

theorem nullFree_of_isName {name : String} (h : Node.IsName name) : NullFree name := h.2.2.2.2

namespace NullFree

variable {s : String}

/-- A part of a text is free of null characters when the text is. -/
theorem of_subset (h : NullFree s) {part : List Char} (hpart : part ⊆ s.toList) :
    NullFree (String.ofList part) := by
  rw [NullFree, String.toList_ofList]
  exact fun hmem => h (hpart hmem)

/-- The spelling of components that are free of null characters. -/
theorem text {p : Path} (h : ∀ name ∈ p.names, NullFree name) : NullFree p.text := by
  intro hmem
  rcases mem_text hmem with hdot | hslash | ⟨name, hname, hc⟩
  · exact absurd hdot (by decide)
  · exact absurd hslash (by decide)
  · exact h name hname hc

theorem of_mem_parse (h : NullFree s) : ∀ name ∈ (parse s).names, NullFree name :=
  fun _ hname hc => h (mem_of_mem_names_parse hname hc)

theorem tidy (h : NullFree s) : NullFree (Path.tidy s) := text h.of_mem_parse

theorem normal (h : NullFree s) : NullFree (Path.normal s) :=
  text fun name hname => h.of_mem_parse name (mem_names_collapse hname)

theorem join {directory name : String} (hdirectory : NullFree directory) (hname : NullFree name) :
    NullFree (Path.join directory name) := by
  unfold Path.join
  split
  · exact hname
  split
  · exact nullFree_append.2 ⟨hdirectory, hname⟩
  · exact nullFree_append.2 ⟨nullFree_append.2 ⟨hdirectory, by decide⟩, hname⟩

theorem descend {directory : String} (hdirectory : NullFree directory) {names : List String}
    (hnames : ∀ name ∈ names, NullFree name) : NullFree (names.foldl Path.join directory) := by
  induction names generalizing directory with
  | nil => exact hdirectory
  | cons name names ih =>
    rw [List.forall_mem_cons] at hnames
    exact ih (hdirectory.join hnames.1) hnames.2

theorem absolute {base : String} (hbase : NullFree base) (h : NullFree s) :
    NullFree (Path.absolute base s) := by
  apply normal
  split
  · exact h
  · exact hbase.join h

theorem mem_dropShared {as bs : List String} {name : String} (h : name ∈ (dropShared as bs).2) :
    name ∈ bs := by
  induction as generalizing bs with
  | nil =>
    rw [dropShared] at h
    · exact h
    · intro _ _ _ _ hcons
      cases hcons
  | cons a as ih =>
    cases bs with
    | nil => cases h
    | cons b bs =>
      rw [dropShared] at h
      split at h
      · exact List.mem_cons_of_mem _ (ih h)
      · exact h

theorem relative {base start : String} (hbase : NullFree base) (h : NullFree s) :
    NullFree (Path.relative base s start) := by
  have hnames : ∀ name ∈ relativeNames base s start, NullFree name := by
    -- A relative path goes up by parent components and down by components of the path.
    intro name hname
    rcases List.mem_append.1 hname with hup | hdown
    · obtain ⟨_, -, rfl⟩ := List.mem_map.1 hup
      decide
    · exact (hbase.absolute h).of_mem_parse name (mem_dropShared hdown)
  unfold Path.relative
  split
  · decide
  · intro hmem
    rcases mem_intercalate hmem with hslash | ⟨name, hname, hc⟩
    · exact absurd hslash (by decide)
    · exact hnames name hname hc

theorem dropEndSlashes_subset (l : List Char) : dropEndSlashes l ⊆ l := by
  intro c hc
  rw [dropEndSlashes, List.mem_reverse] at hc
  exact List.mem_reverse.1 ((List.dropWhile_sublist _).subset hc)

/-- Both parts of a path that is split are free of null characters. -/
theorem split (h : NullFree s) : NullFree (Path.split s).1 ∧ NullFree (Path.split s).2 := by
  constructor
  · apply h.of_subset
    split
    · exact List.take_subset _ _
    · exact List.Subset.trans (dropEndSlashes_subset _) (List.take_subset _ _)
  · show NullFree (baseName s)
    rw [baseName]
    cases hlast : (pieces s).getLast? with
    | none => decide
    | some piece =>
      intro hc
      exact h (mem_of_mem_pieces (List.mem_of_getLast? hlast) hc).1

end NullFree

/-- The shortest spelling holds a null character if any does, since no component that holds one is
left out. -/
theorem nullFree_tidy_iff {s : String} : NullFree (tidy s) ↔ NullFree s := by
  refine ⟨fun htidy hmem => ?_, NullFree.tidy⟩
  rw [← intercalate_pieces s] at hmem
  obtain ⟨piece, hpiece, hnull⟩ := (mem_intercalate hmem).resolve_left (by decide)
  -- Neither the empty piece nor the dot holds one, and only these are left out.
  have htelling : isTelling piece = true := by
    have hempty : piece ≠ "" := by
      rintro rfl
      cases hnull
    have hdot : piece ≠ "." := by
      rintro rfl
      exact absurd hnull (by decide)
    simp [isTelling, hempty, hdot]
  have hname : piece ∈ (parse (tidy s)).names := by
    rw [parse_tidy]
    exact List.mem_filter.2 ⟨hpiece, htelling⟩
  exact htidy (mem_of_mem_names_parse hname hnull)

end LintFront.Path
