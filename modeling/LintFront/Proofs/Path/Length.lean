import LintFront.Proofs.Path.Absolute
import Mathlib
/-!
# The length of a way down

A path may be too long to be used, so it matters how a directory is spelled from which names lead
down. The shortest spelling of a directory is also the one from which the ways down are shortest,
although one slash more may be needed there: a spelling that ends in a slash already has it.

## Main statements

`Path.size_descend`: how long a way down is. `Path.size_descend_tidy_le`: it is not longer from the
shortest spelling than from any other.
-/

namespace LintFront.Path

variable {s name : String} {names : List String}

/-! ## 1. One name -/

theorem size_add_le_size_join (s : String) (hname : IsComponent name) :
    s.utf8ByteSize + name.utf8ByteSize ≤ (join s name).utf8ByteSize := by
  rw [join, if_neg hname.not_isAbsolute]
  split
  · rw [String.utf8ByteSize_append]
  · rw [String.utf8ByteSize_append, String.utf8ByteSize_append]
    omega

theorem size_join (h : EndsInPiece s) (hname : IsComponent name) :
    (join s name).utf8ByteSize = s.utf8ByteSize + 1 + name.utf8ByteSize := by
  rw [join_of_endsInPiece h hname.not_isAbsolute, String.utf8ByteSize_append,
    String.utf8ByteSize_append]
  rfl

/-- Before a name in a relative directory there is a slash, and something before the slash. -/
theorem two_add_le_size_join (hs : s ≠ "") (hrelative : (parse s).anchor = 0)
    (hname : IsComponent name) : 2 + name.utf8ByteSize ≤ (join s name).utf8ByteSize := by
  have hsome : ∀ text : String, text ≠ "" → 1 ≤ text.utf8ByteSize := by
    intro text htext
    rw [Nat.one_le_iff_ne_zero, Ne, String.utf8ByteSize_eq_zero_iff]
    exact htext
  by_cases hend : EndsInPiece s
  · rw [size_join hend hname]
    have hsize := hsome s hs
    omega
  · obtain ⟨stem, rfl⟩ : ∃ stem, s = stem ++ "/" := by
      rw [endsInPiece_iff, not_and, not_not] at hend
      exact Text.hasEnding_iff.1 (hend hs)
    -- A slash alone is the root directory, which is not relative.
    have hstem : stem ≠ "" := by
      rintro rfl
      exact absurd hrelative (by decide)
    have hjoin := size_add_le_size_join (stem ++ "/") hname
    have hslash : "/".utf8ByteSize = 1 := by decide
    rw [String.utf8ByteSize_append, hslash] at hjoin
    have hsize := hsome stem hstem
    omega

/-- The shortest spelling of a path without components is a dot or nothing but slashes. -/
theorem tidy_of_names_eq_nil (h : (parse s).names = []) :
    tidy s = if (parse s).anchor = 0 then "." else slashes (parse s).anchor := by
  rw [tidy, text, h]
  by_cases hanchor : (parse s).anchor = 0
  · rw [if_pos ⟨hanchor, rfl⟩, if_pos hanchor]
  · rw [if_neg (fun hnone => hanchor hnone.1), if_neg hanchor]
    exact String.append_empty

theorem hasEnding_slashes {n : Nat} (h : n ≠ 0) : Text.hasEnding (slashes n) "/" = true := by
  obtain ⟨m, rfl⟩ := Nat.exists_eq_succ_of_ne_zero h
  refine Text.hasEnding_iff.2 ⟨slashes m, ?_⟩
  rw [← String.toList_inj]
  simp [slashes, List.replicate_succ']

/-- Below the shortest spelling of a directory a name is not spelled longer than below any other. -/
theorem size_join_tidy_le (hs : s ≠ "") (hname : IsComponent name) :
    (join (tidy s) name).utf8ByteSize ≤ (join s name).utf8ByteSize := by
  by_cases hnone : (parse s).names = []
  · have hshort := tidy_of_names_eq_nil hnone
    by_cases hanchor : (parse s).anchor = 0
    · -- Below the dot two characters come before the name, and no relative spelling has fewer.
      have hdot : EndsInPiece "." := ⟨[], '.', rfl, by decide⟩
      rw [hshort, if_pos hanchor, size_join hdot hname]
      exact two_add_le_size_join hs hanchor hname
    · have hslash : Text.hasEnding (tidy s) "/" = true := by
        rw [hshort, if_neg hanchor]
        exact hasEnding_slashes hanchor
      rw [join, if_neg hname.not_isAbsolute, if_pos (.inr hslash), String.utf8ByteSize_append]
      exact (Nat.add_le_add_right (size_tidy_le hs) _).trans (size_add_le_size_join s hname)
  · -- Here the name stands in the shortest spelling of its own path.
    have hparse : parse (join (tidy s) name) = parse (join s name) := by
      rw [parse_join _ hname, parse_join _ hname, parse_tidy]
    have htidy : tidy (join (tidy s) name) = join (tidy s) name :=
      tidy_join (tidy_tidy s) (by rwa [parse_tidy]) hname
    rw [← htidy, tidy, hparse]
    exact size_tidy_le (endsInPiece_iff.1 (hname.endsInPiece.join s)).1

/-! ## 2. A sequence of names -/

theorem descend_ne_empty (hs : s ≠ "") (hnames : ∀ name ∈ names, IsComponent name) :
    names.foldl join s ≠ "" := by
  induction names generalizing s with
  | nil => exact hs
  | cons name names ih =>
    obtain ⟨hname, hnames⟩ := List.forall_mem_cons.1 hnames
    exact ih (endsInPiece_iff.1 (hname.endsInPiece.join s)).1 hnames

/-- What a way down adds to the length of a spelling. -/
theorem size_descend (h : EndsInPiece s) (hnames : ∀ name ∈ names, IsComponent name) :
    (names.foldl join s).utf8ByteSize =
      s.utf8ByteSize + (names.map fun name => 1 + name.utf8ByteSize).sum := by
  induction names generalizing s with
  | nil => rfl
  | cons name names ih =>
    obtain ⟨hname, hnames⟩ := List.forall_mem_cons.1 hnames
    rw [List.foldl_cons, ih (hname.endsInPiece.join s) hnames, size_join h hname,
      List.map_cons, List.sum_cons]
    omega

/-- From the shortest spelling of a directory a way down is not spelled longer than from any
other. -/
theorem size_descend_tidy_le (hs : s ≠ "") (hnames : ∀ name ∈ names, IsComponent name) :
    (names.foldl join (tidy s)).utf8ByteSize ≤ (names.foldl join s).utf8ByteSize := by
  -- Only the first name may need a slash more; below it both ways down grow alike.
  cases names with
  | nil => exact size_tidy_le hs
  | cons name names =>
    obtain ⟨hname, hnames⟩ := List.forall_mem_cons.1 hnames
    rw [List.foldl_cons, List.foldl_cons, size_descend (hname.endsInPiece.join _) hnames,
      size_descend (hname.endsInPiece.join _) hnames]
    exact Nat.add_le_add_right (size_join_tidy_le hs hname) _

end LintFront.Path
