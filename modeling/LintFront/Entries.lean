/-!
# Named entries

Directories, tables of settings and registries of engines are lists of named things in which the
order is part of the data: a new name goes to the end, and a name that is there already keeps its
place when its value is replaced. `Entries` holds such a list. A name is found at its first
occurrence, and the operations never add a second one.
-/

namespace LintFront

/-- Named things in order. -/
abbrev Entries (α : Type) := List (String × α)

namespace Entries

variable {α : Type}

/-- The names in order. -/
def names (entries : Entries α) : List String := entries.map (·.1)

/-- What `name` stands for. -/
def find? (name : String) : Entries α → Option α
  | [] => none
  | (n, x) :: rest => if n = name then some x else find? name rest

/-- Is `name` there? -/
def has (name : String) (entries : Entries α) : Bool := (entries.find? name).isSome

/-- Replaces what `name` stands for, or adds it at the end. -/
def alter (name : String) (f : Option α → α) : Entries α → Entries α
  | [] => [(name, f none)]
  | (n, x) :: rest => if n = name then (n, f (some x)) :: rest else (n, x) :: alter name f rest

/-- Lets `name` stand for `x`. -/
def insert (name : String) (x : α) (entries : Entries α) : Entries α :=
  entries.alter name fun _ => x

/-- Removes `name`. -/
def erase (name : String) (entries : Entries α) : Entries α :=
  entries.filter fun e => e.1 ≠ name

/-- The entries of a list of pairs read from the left: the last value of a name counts, at the place
of the first. -/
def ofPairs (pairs : List (String × α)) : Entries α :=
  pairs.foldl (fun entries p => entries.insert p.1 p.2) []

/-! ## Laws -/

@[simp] theorem find?_alter_self (name : String) (f : Option α → α) (entries : Entries α) :
    (entries.alter name f).find? name = some (f (entries.find? name)) := by
  induction entries with
  | nil => simp [alter, find?]
  | cons e rest ih => by_cases h : e.1 = name <;> simp [alter, find?, h, ih]

theorem find?_alter_of_ne {name other : String} (h : other ≠ name) (f : Option α → α)
    (entries : Entries α) : (entries.alter name f).find? other = entries.find? other := by
  induction entries with
  | nil => simp [alter, find?, Ne.symm h]
  | cons e rest ih =>
    by_cases hn : e.1 = name
    · have : e.1 ≠ other := fun ho => h (ho.symm.trans hn)
      simp [alter, find?, hn, Ne.symm h]
    · by_cases ho : e.1 = other <;> simp [alter, find?, hn, ho, h, ih]

@[simp] theorem find?_insert_self (name : String) (x : α) (entries : Entries α) :
    (entries.insert name x).find? name = some x := by simp [insert]

theorem find?_insert_of_ne {name other : String} (h : other ≠ name) (x : α) (entries : Entries α) :
    (entries.insert name x).find? other = entries.find? other := find?_alter_of_ne h _ _

/-- A name that is there keeps its place, a new one goes to the end. -/
theorem names_alter (name : String) (f : Option α → α) (entries : Entries α) :
    (entries.alter name f).names =
      if name ∈ entries.names then entries.names else entries.names ++ [name] := by
  induction entries with
  | nil => simp [alter, names]
  | cons e rest ih =>
    by_cases h : e.1 = name
    · simp [alter, names, h]
    · have hn : name ≠ e.1 := Ne.symm h
      simp only [names] at ih
      by_cases hm : name ∈ rest.map (·.1) <;> simp [alter, names, h, hn, ih, hm]

/-- A name has a value exactly when it is among the names. -/
theorem find?_isSome_iff {name : String} {entries : Entries α} :
    (entries.find? name).isSome = true ↔ name ∈ entries.names := by
  induction entries with
  | nil => simp [find?, names]
  | cons e rest ih =>
    by_cases h : e.1 = name
    · simp [find?, names, h]
    · simp only [names] at ih
      simp [find?, names, h, Ne.symm h, ih]

end Entries

end LintFront
