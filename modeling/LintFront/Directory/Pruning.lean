import LintFront.Text.Ending
/-!
# Directories that are never entered

A recursive target stands for a directory and all below it, less what is by convention not source
code: hidden directories, directories of tools and of built packages, and those the user names.
-/

namespace LintFront.Directory

/-- Names of tooling and packaging directories. -/
def conventional : List String :=
  ["node_modules", "venv", "dist", "build", "__pycache__", "coverage", "site-packages"]

/-- The end of the name of a directory of package metadata. -/
def metadataSuffix : String := ".egg-info"

/-- Is a directory of this name skipped, with everything below it (`should_skip_directory`)? -/
def isSkipped (excludes : List String) (name : String) : Bool :=
  name.startsWith "." || conventional.contains name || excludes.contains name ||
    Text.hasEnding name metadataSuffix

/-- More excludes skip more. -/
theorem isSkipped_mono {a b : List String} (h : ∀ name ∈ a, name ∈ b) {name : String}
    (hs : isSkipped a name = true) : isSkipped b name = true := by
  simp only [isSkipped, Bool.or_eq_true, List.contains_iff_mem] at hs ⊢
  rcases hs with ((hs | hs) | hs) | hs
  · exact .inl (.inl (.inl hs))
  · exact .inl (.inl (.inr hs))
  · exact .inl (.inr (h _ hs))
  · exact .inr hs

end LintFront.Directory
