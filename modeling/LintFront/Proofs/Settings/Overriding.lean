import LintFront.Settings.Memory
import Mathlib.Data.List.Induction
/-!
# Overriding again and again

Settings in memory that are overridden several times hold, setting by setting and rule by rule, what
was given last, and what they held at first where nothing was given. One override that gives all
that was given last does the same at once.

One step is a look at the memory before and after (`exists_applyAt`): what is there stays where it
is, and the new place holds the old content with the given values. The rest is about contents alone,
as a run of steps is a fold of changes (`exists_applyAll`), and a fold is settled from its end
(`foldl_changed`).

## Main statements

* `RawOverrides.last_given_wins`: several overrides, one that combines them, and the same one twice.
* `RawOverrides.applyAt_eq_self_iff`: the settings themselves come back if nothing is given, and
  only then.
-/

namespace LintFront

variable {memory memory' later : Memory} {place : Nat}

/-! ## 1. What is kept -/

/-- All objects of a memory are there later, and hold what they held. -/
structure Memory.IsKeptBy (memory later : Memory) : Prop where
  rules : memory.rules <+: later.rules
  settings : memory.settings <+: later.settings

namespace Memory

theorem IsKeptBy.refl (memory : Memory) : memory.IsKeptBy memory :=
  ⟨List.prefix_refl _, List.prefix_refl _⟩

theorem IsKeptBy.trans (h : memory.IsKeptBy memory') (h' : memory'.IsKeptBy later) :
    memory.IsKeptBy later :=
  ⟨h.rules.trans h'.rules, h.settings.trans h'.settings⟩

theorem content?_eq_some_iff {content : SettingsContent} :
    memory.content? place = some content ↔
      ∃ settings selection, memory.settings[place]? = some settings ∧
        memory.rules[settings.rules]? = some selection ∧
        content = ⟨settings.minConfidence, settings.setExitStatus, settings.analyzer,
          selection.valueOf, settings.excludes⟩ := by
  simp only [content?, Option.bind_eq_bind, Option.bind_eq_some_iff, Option.pure_def,
    Option.some.injEq]
  constructor
  · rintro ⟨settings, hsettings, selection, hselection, rfl⟩
    exact ⟨settings, selection, hsettings, hselection, rfl⟩
  · rintro ⟨settings, selection, hsettings, hselection, rfl⟩
    exact ⟨settings, hsettings, selection, hselection, rfl⟩

theorem content?_ofSettings (settings : Settings) :
    (ofSettings settings).content? 0 = some
      { minConfidence := settings.minConfidence
        setExitStatus := settings.setExitStatus
        analyzer := settings.analyzer
        rules := fun category => .bool (settings.rules.isOn category)
        excludes := settings.excludes } := rfl

/-- The copy is a new object, and the only one that is changed. -/
theorem copyChanged_eq {α : Type} {objects : List α} {object : α} (change : α → α)
    (h : objects[place]? = some object) :
    copyChanged objects place change = some (objects.length, objects ++ [change object]) := by
  have hmodify : (objects ++ [object]).modify objects.length change =
      objects ++ [change object] := by
    simp [List.modify_eq_take_cons_drop]
  rw [copyChanged, h]
  exact congrArg (fun later => some (objects.length, later)) hmodify

end Memory

/-! ## 2. One step -/

namespace RuleTable

variable {table : RuleTable}

theorem explicit?_of_isSilent (h : table.isSilent = true) (category : RuleCategory) :
    table.explicit? category = none := by
  rw [isSilent, List.all_eq_true] at h
  simpa using h category category.mem_all

theorem isSilent_of_isEmpty (h : table.isEmpty = true) : table.isSilent = true := by
  rw [isEmpty, List.all_eq_true] at h
  rw [isSilent, List.all_eq_true]
  intro category hmem
  have hnone : table category = none := by simpa using h category hmem
  simp [explicit?, hnone]

end RuleTable

namespace SettingsUpdate

theorem isEmpty_iff {update : SettingsUpdate} :
    update.isEmpty = true ↔ update = ⟨none, none, none, none⟩ := by
  cases update
  simp [isEmpty, and_assoc]

theorem change_of_isEmpty {update : SettingsUpdate} (h : update.isEmpty = true)
    (settings : StoredSettings) : update.change settings = settings := by
  rw [isEmpty_iff.1 h]
  rfl

end SettingsUpdate

namespace Memory

/-- The selection with the given rules, which is a new object unless it is the old selection. -/
theorem exists_switchRules {selection : StoredRules} (h : memory.rules[place]? = some selection)
    (table : RuleTable) :
    ∃ place' memory', memory.switchRules place table = some (place', memory') ∧
      memory.rules <+: memory'.rules ∧ memory'.settings = memory.settings ∧
      memory'.rules[place']? =
        some ⟨fun category => (table.explicit? category).getD (selection.valueOf category)⟩ := by
  rw [switchRules]
  by_cases hsilent : table.isSilent = true
  · rw [if_pos hsilent]
    refine ⟨place, memory, rfl, List.prefix_refl _, rfl, ?_⟩
    simp only [RuleTable.explicit?_of_isSilent hsilent, Option.getD_none]
    exact h
  · rw [if_neg hsilent, copyChanged_eq _ h]
    exact ⟨_, _, rfl, List.prefix_append _ _, rfl, List.getElem?_concat_length⟩

/-- The settings with changes, which are a new object unless there are no changes. -/
theorem exists_changeSettings {settings : StoredSettings}
    (h : memory.settings[place]? = some settings) (update : SettingsUpdate) :
    ∃ place' memory', memory.changeSettings place update = some (place', memory') ∧
      memory.settings <+: memory'.settings ∧ memory'.rules = memory.rules ∧
      memory'.settings[place']? = some (update.change settings) ∧
      if update.isEmpty then place' = place ∧ memory' = memory
        else place' = memory.settings.length := by
  rw [changeSettings]
  by_cases hempty : update.isEmpty = true
  · simp only [if_pos hempty]
    refine ⟨place, memory, rfl, List.prefix_refl _, rfl, ?_, rfl, rfl⟩
    rw [h, SettingsUpdate.change_of_isEmpty hempty]
  · simp only [if_neg hempty]
    rw [copyChanged_eq _ h]
    exact ⟨_, _, rfl, List.prefix_append _ _, rfl, List.getElem?_concat_length, rfl⟩

end Memory

namespace RawOverrides

/-- The content with everything that is given. -/
def changed (o : RawOverrides) (content : SettingsContent) : SettingsContent where
  minConfidence := o.minConfidence.getD content.minConfidence
  setExitStatus := o.setExitStatus.getD content.setExitStatus
  analyzer := o.analyzer.getD content.analyzer
  rules category := (o.rule? category).getD (content.rules category)
  excludes := content.excludes

/-- The settings get another selection exactly if there is a table with an entry. The selection that
they have then has the given rules. -/
theorem exists_switchedRules {selection : StoredRules} (h : memory.rules[place]? = some selection)
    (o : RawOverrides) :
    ∃ rules memory', o.switchedRules memory place = some (rules, memory') ∧
      memory.rules <+: memory'.rules ∧ memory'.settings = memory.settings ∧
      memory'.rules[rules.getD place]? =
        some ⟨fun category => (o.rule? category).getD (selection.valueOf category)⟩ ∧
      rules.isNone = o.rules.all (·.isEmpty) ∧
      (rules = none → memory' = memory) := by
  -- Where no rule is given a value, the old selection is the one with the given rules.
  have hsame (hnone : ∀ category, o.rule? category = none) :
      memory.rules[(none : Option Nat).getD place]? =
        some ⟨fun category => (o.rule? category).getD (selection.valueOf category)⟩ := by
    simp only [hnone, Option.getD_none]
    exact h
  rw [switchedRules]
  cases hrules : o.rules with
  | none =>
    refine ⟨none, memory, rfl, List.prefix_refl _, rfl, hsame fun category => ?_, rfl, fun _ => rfl⟩
    rw [rule?, hrules, Option.bind_none]
  | some table =>
    have hrule : ∀ category, o.rule? category = table.explicit? category := by
      intro category
      rw [rule?, hrules, Option.bind_some]
    dsimp only
    by_cases hempty : table.isEmpty = true
    · rw [if_pos hempty]
      refine ⟨none, memory, rfl, List.prefix_refl _, rfl, hsame fun category => ?_, ?_,
        fun _ => rfl⟩
      · rw [hrule, RuleTable.explicit?_of_isSilent (RuleTable.isSilent_of_isEmpty hempty)]
      · simp [hempty]
    · rw [if_neg hempty]
      obtain ⟨copy, memory', hswitch, hkept, hsettings, hselection⟩ :=
        Memory.exists_switchRules h table
      refine ⟨some copy, memory', by rw [hswitch]; rfl, hkept, hsettings, ?_, ?_, nofun⟩
      · simp only [hrule, Option.getD_some]
        exact hselection
      · simp [hempty]

/-- What one override does: it keeps all objects, and leads to settings with everything that is
given. They are the old ones if nothing is given, and otherwise a new object. -/
theorem exists_applyAt {content : SettingsContent} (h : memory.content? place = some content)
    (o : RawOverrides) :
    ∃ place' memory', o.applyAt memory place = some (place', memory') ∧
      memory.IsKeptBy memory' ∧ memory'.content? place' = some (o.changed content) ∧
      if o.isEmpty then place' = place ∧ memory' = memory
        else place' = memory.settings.length := by
  obtain ⟨settings, selection, hsettings, hselection, rfl⟩ := Memory.content?_eq_some_iff.1 h
  -- First the selection is switched; then come the settings that are to hold it.
  obtain ⟨rules, memory₁, hswitch, hkept, hsame, hnew, hnone, hold⟩ :=
    exists_switchedRules hselection o
  let update : SettingsUpdate := ⟨o.minConfidence, o.setExitStatus, o.analyzer, rules⟩
  obtain ⟨place', memory', hchange, hsettings', hrules', hchanged, hplace⟩ :=
    Memory.exists_changeSettings (hsame ▸ hsettings) update
  have hrun : o.applyAt memory place = some (place', memory') := by
    rw [applyAt, hsettings, Option.bind_eq_bind, Option.bind_some, hswitch]
    exact hchange
  have hempty : update.isEmpty = o.isEmpty := by
    rw [SettingsUpdate.isEmpty, isEmpty, ← hnone]
  refine ⟨place', memory', hrun, ⟨hrules' ▸ hkept, hsame ▸ hsettings'⟩, ?_, ?_⟩
  · exact Memory.content?_eq_some_iff.2 ⟨_, _, hchanged, hrules' ▸ hnew, rfl⟩
  · rw [hempty, hsame] at hplace
    by_cases hnothing : o.isEmpty = true
    · simp only [if_pos hnothing] at hplace ⊢
      have hrules : rules = none := by
        rw [hnothing, SettingsUpdate.isEmpty_iff] at hempty
        exact congrArg SettingsUpdate.rules hempty
      exact ⟨hplace.1, hplace.2.trans (hold hrules)⟩
    · simp only [if_neg hnothing] at hplace ⊢
      exact hplace

/-- The settings themselves come back exactly if nothing is given. A table of rules that gives
nothing but null values makes a copy. -/
theorem applyAt_eq_self_iff {content : SettingsContent} (h : memory.content? place = some content)
    (o : RawOverrides) : o.applyAt memory place = some (place, memory) ↔ o.isEmpty = true := by
  obtain ⟨place', memory', hrun, -, -, hplace⟩ := exists_applyAt h o
  obtain ⟨settings, selection, hsettings, -, -⟩ := Memory.content?_eq_some_iff.1 h
  have hlt : place < memory.settings.length := (List.getElem?_eq_some_iff.1 hsettings).1
  rw [hrun, Option.some.injEq, Prod.mk.injEq]
  by_cases hempty : o.isEmpty = true
  · rw [if_pos hempty] at hplace
    exact iff_of_true hplace hempty
  · rw [if_neg hempty] at hplace
    exact iff_of_false (fun hself => by omega) hempty

/-! ## 3. Several steps -/

theorem applyAll_cons (o : RawOverrides) (overrides : List RawOverrides) (memory : Memory)
    (place : Nat) :
    applyAll (o :: overrides) memory place =
      (o.applyAt memory place).bind fun r => applyAll overrides r.2 r.1 := rfl

theorem applyAll_append (before after : List RawOverrides) (memory : Memory) (place : Nat) :
    applyAll (before ++ after) memory place =
      (applyAll before memory place).bind fun r => applyAll after r.2 r.1 := by
  rw [applyAll, List.foldlM_append]
  rfl

/-- What several overrides do: they keep all objects, and lead to the content with one change after
the other. -/
theorem exists_applyAll {content : SettingsContent} (h : memory.content? place = some content)
    (overrides : List RawOverrides) :
    ∃ place' memory', applyAll overrides memory place = some (place', memory') ∧
      memory.IsKeptBy memory' ∧
      memory'.content? place' = some (overrides.foldl (fun content o => o.changed content) content)
      := by
  induction overrides generalizing memory place content with
  | nil => exact ⟨place, memory, rfl, .refl memory, h⟩
  | cons o overrides ih =>
    obtain ⟨place₁, memory₁, hstep, hkept₁, hcontent₁, -⟩ := exists_applyAt h o
    obtain ⟨place₂, memory₂, hrest, hkept₂, hcontent₂⟩ := ih hcontent₁
    refine ⟨place₂, memory₂, ?_, hkept₁.trans hkept₂, hcontent₂⟩
    rw [applyAll_cons, hstep, Option.bind_some, hrest]

/-- What the settings at a place hold once they are overridden. -/
def contentAfter (overrides : List RawOverrides) (memory : Memory) (place : Nat) :
    Option SettingsContent :=
  (applyAll overrides memory place).bind fun r => r.2.content? r.1

theorem contentAfter_eq {content : SettingsContent} (h : memory.content? place = some content)
    (overrides : List RawOverrides) :
    contentAfter overrides memory place =
      some (overrides.foldl (fun content o => o.changed content) content) := by
  obtain ⟨place', memory', hrun, -, hcontent⟩ := exists_applyAll h overrides
  rw [contentAfter, hrun, Option.bind_some, hcontent]

/-! ## 4. What was given last -/

/-- What several overrides give last. -/
def last? {α : Type} (given? : RawOverrides → Option α) (overrides : List RawOverrides) :
    Option α := (overrides.filterMap given?).getLast?

theorem last?_append {α : Type} (given? : RawOverrides → Option α)
    (before after : List RawOverrides) :
    last? given? (before ++ after) = (last? given? after).or (last? given? before) := by
  rw [last?, List.filterMap_append, List.getLast?_append]
  rfl

theorem last?_singleton {α : Type} (given? : RawOverrides → Option α) (o : RawOverrides) :
    last? given? [o] = given? o := by
  cases hgiven : given? o <;> simp [last?, hgiven]

/-- The content with what was given last. -/
def overruled (overrides : List RawOverrides) (content : SettingsContent) : SettingsContent where
  minConfidence := (last? (·.minConfidence) overrides).getD content.minConfidence
  setExitStatus := (last? (·.setExitStatus) overrides).getD content.setExitStatus
  analyzer := (last? (·.analyzer) overrides).getD content.analyzer
  rules category := (last? (·.rule? category) overrides).getD (content.rules category)
  excludes := content.excludes

/-- One change after the other leaves what was given last. -/
theorem foldl_changed (overrides : List RawOverrides) (content : SettingsContent) :
    overrides.foldl (fun content o => o.changed content) content = overruled overrides content := by
  induction overrides using List.reverseRecOn with
  | nil => rfl
  | append_singleton overrides o ih =>
    -- The last override decides where it gives something, else the others do.
    rw [List.foldl_append, ih, List.foldl_cons, List.foldl_nil, changed, overruled, overruled]
    simp only [last?_append, last?_singleton, Option.getD_or]

/-- One override that gives what several give last. -/
def combined (overrides : List RawOverrides) : RawOverrides where
  minConfidence := last? (·.minConfidence) overrides
  setExitStatus := last? (·.setExitStatus) overrides
  analyzer := last? (·.analyzer) overrides
  rules := some fun category => last? (·.rule? category) overrides

/-- What is given to a rule is not the null value. -/
theorem explicit?_of_rule? {o : RawOverrides} {category : RuleCategory} {v : Value}
    (h : o.rule? category = some v) : v.explicit? = some v := by
  obtain ⟨table, -, htable⟩ := Option.bind_eq_some_iff.1 h
  obtain ⟨entry, -, hentry⟩ := Option.bind_eq_some_iff.1 htable
  have hsame : entry = v := by
    cases entry with
    | null => simp [Value.explicit?] at hentry
    | _ => simpa [Value.explicit?] using hentry
  rw [← hsame, hentry, hsame]

theorem rule?_combined (overrides : List RawOverrides) (category : RuleCategory) :
    (combined overrides).rule? category = last? (·.rule? category) overrides := by
  rw [rule?, combined, Option.bind_some, RuleTable.explicit?]
  cases hlast : last? (·.rule? category) overrides with
  | none => rfl
  | some v =>
    obtain ⟨o, -, ho⟩ := List.mem_filterMap.1 (List.mem_of_getLast? hlast)
    exact explicit?_of_rule? ho

theorem changed_combined (overrides : List RawOverrides) (content : SettingsContent) :
    (combined overrides).changed content = overruled overrides content := by
  simp only [changed, overruled, rule?_combined]
  rfl

/-- Combining is associative: it makes no difference how several overrides are grouped. -/
theorem combined_append (before after : List RawOverrides) :
    combined (before ++ after) = combined [combined before, combined after] := by
  have hpair : [combined before, combined after] = [combined before] ++ [combined after] := rfl
  rw [hpair, combined, combined]
  simp only [last?_append, last?_singleton, rule?_combined]
  rfl

theorem changed_changed (o : RawOverrides) (content : SettingsContent) :
    o.changed (o.changed content) = o.changed content := by
  have hagain {α : Type} (given : Option α) (x : α) : given.getD (given.getD x) = given.getD x := by
    cases given <;> rfl
  simp only [changed, hagain]

/-! ## 5. The settings of the command -/

/-- What is given, as the command takes it. -/
def overrides (o : RawOverrides) : Overrides where
  minConfidence := o.minConfidence
  setExitStatus := o.setExitStatus
  analyzer := o.analyzer
  rules := RuleCategory.all.map fun category => (category, (o.rule? category).map Value.isTruthy)

theorem switchOf_all (switch : RuleCategory → Option Bool) (category : RuleCategory) :
    switchOf (RuleCategory.all.map fun c => (c, switch c)) category = switch category := by
  cases category <;> rfl

/-- Settings in memory change as those of the command do. -/
theorem settings_changed (o : RawOverrides) (content : SettingsContent) :
    (o.changed content).settings = o.overrides.apply content.settings := by
  have hrules : (⟨fun category => ((o.rule? category).getD (content.rules category)).isTruthy⟩ :
      RuleSelection) = content.settings.rules.withSwitches o.overrides.rules := by
    refine congrArg RuleSelection.mk (funext fun category => ?_)
    rw [overrides, switchOf_all]
    cases o.rule? category <;> rfl
  rw [SettingsContent.settings, Overrides.apply, ← hrules]
  rfl

theorem settings_foldl_changed (overrides : List RawOverrides) (content : SettingsContent) :
    (overrides.foldl (fun content o => o.changed content) content).settings =
      overrides.foldl (fun settings o => o.overrides.apply settings) content.settings := by
  induction overrides generalizing content with
  | nil => rfl
  | cons o overrides ih => rw [List.foldl_cons, List.foldl_cons, ih, settings_changed]

/-! ## 6. Result -/

/-- Settings in memory that are overridden several times hold what was given last, setting by
setting and rule by rule, and their own where nothing was given. The override that combines all of
them leads to the same, however they are grouped, and one that is applied again changes nothing
more. The rules that are on are those with a truthy value, in their order. Read as settings, the
result is what the command makes of them. No object that was there at any time is changed later. -/
theorem last_given_wins {content : SettingsContent} (h : memory.content? place = some content)
    (overrides : List RawOverrides) :
    contentAfter overrides memory place = some
      { minConfidence := (last? (·.minConfidence) overrides).getD content.minConfidence
        setExitStatus := (last? (·.setExitStatus) overrides).getD content.setExitStatus
        analyzer := (last? (·.analyzer) overrides).getD content.analyzer
        rules := fun category =>
          (last? (·.rule? category) overrides).getD (content.rules category)
        excludes := content.excludes } ∧
    contentAfter [combined overrides] memory place = contentAfter overrides memory place ∧
    (∀ more, combined (overrides ++ more) = combined [combined overrides, combined more]) ∧
    (∀ o, contentAfter (overrides ++ [o, o]) memory place =
      contentAfter (overrides ++ [o]) memory place) ∧
    (contentAfter overrides memory place).map (·.settings.rules.enabled) =
      some (RuleCategory.all.filter fun category =>
        ((last? (·.rule? category) overrides).getD (content.rules category)).isTruthy) ∧
    (contentAfter overrides memory place).map (·.settings) =
      some (overrides.foldl (fun settings o => o.overrides.apply settings) content.settings) ∧
    ∀ before after, overrides = before ++ after → ∃ place₁ memory₁ place₂ memory₂,
      applyAll before memory place = some (place₁, memory₁) ∧
      applyAll overrides memory place = some (place₂, memory₂) ∧ memory₁.IsKeptBy memory₂ := by
  have hafter : contentAfter overrides memory place = some (overruled overrides content) := by
    rw [contentAfter_eq h, foldl_changed]
  refine ⟨hafter, ?_, combined_append overrides, fun o => ?_, ?_, ?_, ?_⟩
  · rw [contentAfter_eq h, hafter, List.foldl_cons, List.foldl_nil, changed_combined]
  · rw [contentAfter_eq h, contentAfter_eq h]
    simp only [List.foldl_append, List.foldl_cons, List.foldl_nil, changed_changed]
  · rw [hafter]
    rfl
  · rw [contentAfter_eq h, Option.map_some, settings_foldl_changed]
  · rintro before after rfl
    obtain ⟨place₁, memory₁, hbefore, -, hcontent⟩ := exists_applyAll h before
    obtain ⟨place₂, memory₂, hrest, hkept, -⟩ := exists_applyAll hcontent after
    refine ⟨place₁, memory₁, place₂, memory₂, hbefore, ?_, hkept⟩
    rw [applyAll_append, hbefore, Option.bind_some, hrest]

/-- Five overrides: without a table of rules, with one that has no entry, with one that has null
values only, and two with values for rules. -/
def fivefold : List RawOverrides :=
  [{ analyzer := some "strict" },
   { rules := some fun _ => none },
   { rules := some fun _ => some .null },
   { setExitStatus := some true
     rules := some fun category => if category = .names then some (.text "") else none },
   { analyzer := some "syntax"
     rules := some fun category =>
       if category = .names then some (.text "false")
       else if category = .errors then some (.integer 0)
       else some .null }]

theorem last_given_wins_fivefold :
    (contentAfter fivefold (.ofSettings .default) 0).map (fun c => (c.analyzer, c.setExitStatus)) =
        some ("syntax", true) ∧
      (contentAfter fivefold (.ofSettings .default) 0).map (·.settings.rules.enabled) =
        some (RuleCategory.all.filter fun category => category ≠ .errors) := by
  obtain ⟨hcontent, -, -, -, henabled, -⟩ :=
    last_given_wins (Memory.content?_ofSettings .default) fivefold
  refine ⟨by rw [hcontent]; rfl, henabled.trans ?_⟩
  rfl

end RawOverrides

end LintFront
