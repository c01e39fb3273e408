import LintFront.Value
/-!
# Merging layers of settings

Settings come in layers, each a table. A later layer wins where both speak, name by name, and two
tables under one name are merged in the same way rather than replaced. Before that, names are
brought to one spelling: a hyphen in a name is an underscore.

A list is replaced as a whole, and the tables inside a list are not touched at all. Tables may be
nested in tables, but not without bound: `Layer.maxDepth` is how many there may be one inside the
other.
-/

namespace LintFront.Layer

/-- The one spelling of a name. -/
def spell (name : String) : String :=
  String.ofList (name.toList.map fun c => if c = '-' then '_' else c)

mutual

/-- The value with the names of its tables in their one spelling. -/
def spelled : Value → Value
  | .table entries => .table (spelledFrom [] entries)
  | .null => .null
  | .bool b => .bool b
  | .integer i => .integer i
  | .real x => .real x
  | .text s => .text s
  | .moment s => .moment s
  | .list items => .list items

/-- The entries with their names in their one spelling, after those of `done`. Of names that come to
be the same, the last value counts, at the place of the first. -/
def spelledFrom (done : Entries Value) : List (String × Value) → Entries Value
  | [] => done
  | (name, v) :: rest => spelledFrom (done.insert (spell name) (spelled v)) rest

end

/-- A table with all names in their one spelling (`_normalise_keys`). -/
def normalized (entries : Entries Value) : Entries Value := spelledFrom [] entries

mutual

/-- How many tables a value nests one inside the other. Lists and what they hold count for
nothing. -/
def depth : Value → Nat
  | .table entries => depthBelow entries + 1
  | _ => 0

/-- The greatest depth of a value among the entries of a table. -/
def depthBelow : List (String × Value) → Nat
  | [] => 0
  | (_, v) :: rest => max (depth v) (depthBelow rest)

end

/-- The greatest depth of a layer. It comes from a bound on the calls under way, so the number is
that of one place in the program, a run from the command line, and of innermost tables that hold
plain values: further down, or with other values innermost, it is a little smaller or greater. -/
def maxDepth : Nat := 987

mutual

/-- The value under one name: tables are merged, anything else is replaced. -/
def mergeValue (old : Option Value) : Value → Value
  | .table entries =>
    match old with
    | some (.table base) => .table (mergeInto base entries)
    | _ => .table entries
  | .null => .null
  | .bool b => .bool b
  | .integer i => .integer i
  | .real x => .real x
  | .text s => .text s
  | .moment s => .moment s
  | .list items => .list items

/-- The table `base` with the entries of a later layer merged in, one by one (`_deep_merge`). -/
def mergeInto (base : Entries Value) : List (String × Value) → Entries Value
  | [] => base
  | (name, v) :: rest => mergeInto (base.alter name fun old => mergeValue old v) rest

end

/-- Layers merged into one, the first layer lowest. -/
def merged (layers : List (Entries Value)) : Entries Value :=
  layers.foldl (fun base layer => mergeInto base layer) []

/-! ## Laws -/

@[simp] theorem mergeInto_nil (base : Entries Value) : mergeInto base [] = base := by
  simp [mergeInto]

@[simp] theorem mergeInto_cons (base : Entries Value) (name : String) (v : Value)
    (rest : Entries Value) :
    mergeInto base ((name, v) :: rest) =
      mergeInto (base.alter name fun old => mergeValue old v) rest := by
  simp [mergeInto]

/-- Merging a concatenation is merging one part after the other. -/
theorem mergeInto_append (base a b : Entries Value) :
    mergeInto base (a ++ b) = mergeInto (mergeInto base a) b := by
  induction a generalizing base with
  | nil => simp
  | cons e a ih => cases e; simp [ih]

/-- Replacing hyphens twice is replacing them once. -/
theorem spell_spell (name : String) : spell (spell name) = spell name := by
  simp only [spell, String.toList_ofList, List.map_map]
  congr 1
  apply List.map_congr_left
  intro c _
  by_cases h : c = '-' <;> simp [h]

end LintFront.Layer
