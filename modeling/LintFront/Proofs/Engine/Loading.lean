import LintFront.Engine.Registry
import LintFront.Proofs.Entries
/-!
# What installed entries do to each other

All installed entries are loaded, also those that nobody asks for. What a name comes to stand for is
settled by the entries of this name alone, as long as the loading gets to its end. But it ends at
the first entry with a failure that is not skipped, and then no name stands for anything. Such an
entry is said to *escape*.

So entries of other names can be taken out of an installation without harm to an engine, provided
that none of them escapes.

## Main statements

`Registry.skipped_plugins`: which entries are told to be skipped. `Registry.plugins_without`: what
remains the same when harmless entries of other names are taken out.
-/

namespace LintFront

/-- The second list is the first one without some of the elements that have a property. -/
inductive Without {α : Type} (gone : α → Prop) : List α → List α → Prop where
  | nil : Without gone [] []
  | keep (x : α) {xs ys : List α} (rest : Without gone xs ys) : Without gone (x :: xs) (x :: ys)
  | drop {x : α} {xs ys : List α} (dropped : gone x) (rest : Without gone xs ys) :
      Without gone (x :: xs) ys

namespace Without

variable {α : Type} {gone : α → Prop} {xs ys : List α}

theorem mono {gone' : α → Prop} (h : Without gone xs ys) (himp : ∀ x, gone x → gone' x) :
    Without gone' xs ys := by
  induction h with
  | nil => exact .nil
  | keep x _ ih => exact .keep x ih
  | drop hx _ ih => exact .drop (himp _ hx) ih

/-- What is made of the elements is missing where they are. -/
theorem filterMap {β : Type} {f : α → Option β} {gone' : β → Prop} (h : Without gone xs ys)
    (himp : ∀ x y, f x = some y → gone x → gone' y) :
    Without gone' (xs.filterMap f) (ys.filterMap f) := by
  induction h with
  | nil => exact .nil
  | keep x _ ih =>
    rw [List.filterMap_cons, List.filterMap_cons]
    cases f x with
    | none => exact ih
    | some y => exact .keep y ih
  | @drop x _ _ hx _ ih =>
    rw [List.filterMap_cons]
    cases hy : f x with
    | none => exact ih
    | some y => exact .drop (himp x y hy hx) ih

theorem filter (p : α → Bool) {gone' : α → Prop} (h : Without gone xs ys)
    (himp : ∀ x, p x = true → gone x → gone' x) : Without gone' (xs.filter p) (ys.filter p) := by
  rw [← List.filterMap_eq_filter]
  apply h.filterMap
  intro x y hy hx
  obtain ⟨rfl, hp⟩ := Option.guard_eq_some_iff.1 hy
  exact himp x hp hx

/-- To take out elements that satisfy `p` does not move the first that does not. -/
theorem takeWhile {p : α → Bool} (h : Without gone xs ys) (himp : ∀ x, gone x → p x = true) :
    Without gone (xs.takeWhile p) (ys.takeWhile p) := by
  induction h with
  | nil => exact .nil
  | keep x _ ih =>
    rw [List.takeWhile_cons, List.takeWhile_cons]
    split
    · exact .keep x ih
    · exact .nil
  | @drop x _ _ hx _ ih =>
    rw [List.takeWhile_cons, if_pos (himp x hx)]
    exact .drop hx ih

/-- What there is no reason to take out is still there. -/
theorem mem_of_not (h : Without gone xs ys) {x : α} (hx : x ∈ xs) (hstays : ¬gone x) : x ∈ ys := by
  induction h with
  | nil => exact hx
  | keep y _ ih =>
    rcases List.mem_cons.1 hx with rfl | hrest
    · exact List.mem_cons_self
    · exact List.mem_cons_of_mem _ (ih hrest)
  | drop hy _ ih =>
    rcases List.mem_cons.1 hx with rfl | hrest
    · exact absurd hy hstays
    · exact ih hrest

/-- What all elements have, those that were taken out have as well. -/
theorem and_of_forall {gone' : α → Prop} (h : Without gone xs ys) (hall : ∀ x ∈ xs, gone' x) :
    Without (fun x => gone x ∧ gone' x) xs ys := by
  induction h with
  | nil => exact .nil
  | keep x _ ih => exact .keep x (ih fun y hy => hall y (List.mem_cons_of_mem _ hy))
  | @drop x _ _ hx _ ih =>
    exact .drop ⟨hx, hall x List.mem_cons_self⟩ (ih fun y hy => hall y (List.mem_cons_of_mem _ hy))

end Without

/-! ## 1. Loading entries -/

namespace EntryPoint

/-- Can the entry be loaded, or does it fail in a way that is skipped? -/
def isTolerable (entry : EntryPoint) : Bool :=
  match entry.load with
  | .ok _ => true
  | .error failure => failure.kind.isSkipped

/-- The entry as it is told to be skipped, if it fails. -/
def skipped? (entry : EntryPoint) : Option Registry.Skipped :=
  match entry.load with
  | .ok _ => none
  | .error failure => some (entry.name, failure)

/-- Does the entry do no harm to others? It is no engine, or it is tolerable. -/
def IsHarmless (entry : EntryPoint) : Prop :=
  entry.group = Registry.engineGroup → entry.isTolerable = true

end EntryPoint

namespace Registry

variable {skipped skipped' : List Skipped} {factories factories' : Entries Factory}
  {entries entries' : List EntryPoint} {name : String}

/-- The entries that are told to be skipped are those that fail before one escapes. -/
theorem skipped_loadFrom (skipped : List Skipped) (factories : Entries Factory)
    (entries : List EntryPoint) :
    (loadFrom skipped factories entries).skipped =
      skipped ++ (entries.takeWhile EntryPoint.isTolerable).filterMap EntryPoint.skipped? := by
  induction entries generalizing skipped factories with
  | nil => simp [loadFrom]
  | cons entry rest ih =>
    rw [loadFrom, List.takeWhile_cons]
    cases hload : entry.load with
    | ok factory =>
      have htolerable : entry.isTolerable = true := by rw [EntryPoint.isTolerable, hload]
      have hsilent : entry.skipped? = none := by rw [EntryPoint.skipped?, hload]
      rw [if_pos htolerable, List.filterMap_cons_none hsilent]
      exact ih _ _
    | error failure =>
      have hkind : entry.isTolerable = failure.kind.isSkipped := by
        rw [EntryPoint.isTolerable, hload]
      have htold : entry.skipped? = some (entry.name, failure) := by rw [EntryPoint.skipped?, hload]
      rw [hkind]
      dsimp only
      split
      · rw [ih, List.filterMap_cons_some htold, List.append_assoc]
        rfl
      · rw [List.filterMap_nil, List.append_nil]

/-- The loading is ended by a failure when an entry escapes, and only then. -/
theorem exists_outcome_eq_error_iff :
    (∃ failure, (loadFrom skipped factories entries).outcome = .error failure) ↔
      ∃ entry ∈ entries, entry.isTolerable = false := by
  induction entries generalizing skipped factories with
  | nil => simp [loadFrom]
  | cons entry rest ih =>
    rw [loadFrom]
    cases hload : entry.load with
    | ok factory => simpa [EntryPoint.isTolerable, hload] using ih
    | error failure =>
      by_cases hskipped : failure.kind.isSkipped = true
      · simpa [EntryPoint.isTolerable, hload, hskipped] using ih
      · simp [EntryPoint.isTolerable, hload, hskipped]

/-- What a name comes to stand for is not changed by harmless entries of other names, and neither is
the failure that ends the loading. -/
theorem loadFrom_without
    (h : Without (fun e => e.name ≠ name ∧ e.isTolerable = true) entries entries')
    (hsame : factories.find? name = factories'.find? name) :
    (loadFrom skipped factories entries).outcome.map (·.find? name) =
      (loadFrom skipped' factories' entries').outcome.map (·.find? name) := by
  -- What was told and what other names stand for come apart on the way, and are not asked for.
  induction h generalizing skipped skipped' factories factories' with
  | nil => exact congrArg Except.ok hsame
  | keep entry _ ih =>
    rw [loadFrom, loadFrom]
    cases entry.load with
    | ok factory =>
      apply ih
      by_cases hname : name = entry.name
      · rw [hname, Entries.find?_insert_self, Entries.find?_insert_self]
      · rw [Entries.find?_insert_of_ne hname, Entries.find?_insert_of_ne hname, hsame]
    | error failure =>
      dsimp only
      split
      · exact ih hsame
      · rfl
  | @drop entry _ _ hdropped _ ih =>
    obtain ⟨hname, htolerable⟩ := hdropped
    rw [loadFrom]
    cases hload : entry.load with
    | ok factory =>
      apply ih
      rw [Entries.find?_insert_of_ne (Ne.symm hname), hsame]
    | error failure =>
      rw [EntryPoint.isTolerable, hload] at htolerable
      dsimp only at htolerable ⊢
      rw [if_pos htolerable]
      exact ih hsame

/-! ## 2. Names among all engines -/

theorem nodup_names_loadFrom {all : Entries Factory} (hfactories : factories.names.Nodup)
    (h : (loadFrom skipped factories entries).outcome = .ok all) : all.names.Nodup := by
  induction entries generalizing skipped factories with
  | nil =>
    obtain rfl := Except.ok.inj h
    exact hfactories
  | cons entry rest ih =>
    rw [loadFrom] at h
    split at h
    · exact ih (Entries.nodup_names_alter hfactories) h
    · split at h
      · exact ih hfactories h
      · cases h

/-- A name under which an entry could be loaded stands for something. -/
theorem isSome_find?_of_loadFrom {all : Entries Factory}
    (h : (loadFrom skipped factories entries).outcome = .ok all)
    (hname : (factories.find? name).isSome = true ∨
      ∃ entry ∈ entries, entry.name = name ∧ ∃ factory, entry.load = .ok factory) :
    (all.find? name).isSome = true := by
  -- A name that stands for something may come to stand for something else, but never for nothing.
  induction entries generalizing skipped factories with
  | nil =>
    obtain rfl := Except.ok.inj h
    exact hname.resolve_right (by simp)
  | cons entry rest ih =>
    rw [loadFrom] at h
    cases hload : entry.load with
    | ok factory =>
      rw [hload] at h
      apply ih h
      by_cases hentry : name = entry.name
      · rw [hentry, Entries.find?_insert_self]
        exact .inl rfl
      · rw [Entries.find?_insert_of_ne hentry]
        refine hname.imp_right ?_
        rintro ⟨other, hother, rfl, hfactory⟩
        exact ⟨other, (List.mem_cons.1 hother).resolve_left fun heq => hentry (heq ▸ rfl), rfl,
          hfactory⟩
    | error failure =>
      rw [hload] at h
      dsimp only at h
      split at h
      · apply ih h
        refine hname.imp_right ?_
        rintro ⟨other, hother, hnamed, factory, hfactory⟩
        refine ⟨other, (List.mem_cons.1 hother).resolve_left ?_, hnamed, factory, hfactory⟩
        rintro rfl
        rw [hload] at hfactory
        cases hfactory
      · cases h

/-- Where names stand for one thing each, what is overlaid is found first. -/
theorem find?_overlay (name : String) (factories own : Entries Factory)
    (h : factories.names.Nodup) :
    (factories.foldl (fun all e => all.insert e.1 e.2) own).find? name =
      (factories.find? name).or (own.find? name) := by
  induction factories generalizing own with
  | nil => rfl
  | cons e rest ih =>
    obtain ⟨hfirst, hrest⟩ : e.1 ∉ Entries.names rest ∧ (Entries.names rest).Nodup :=
      List.nodup_cons.1 h
    rw [List.foldl_cons, ih _ hrest]
    by_cases hname : e.1 = name
    · subst hname
      rw [Entries.find?_eq_none_iff.2 hfirst, Entries.find?_insert_self, Entries.find?, if_pos rfl]
      rfl
    · rw [Entries.find?_insert_of_ne (Ne.symm hname), Entries.find?, if_neg hname]

/-- The name is that of a built-in engine, or that of an installed entry that can be loaded. -/
def IsAvailable (own : Entries Factory) (installation : Installation) (name : String) : Prop :=
  name ∈ own.names ∨ ∃ entry ∈ installed installation, entry.name = name ∧
    ∃ factory, entry.load = .ok factory

section

variable {own : Entries Factory} {installation installation' : Installation}

theorem skipped_plugins (installation : Installation) :
    (plugins installation).skipped = ((installed installation).takeWhile
      EntryPoint.isTolerable).filterMap EntryPoint.skipped? :=
  skipped_loadFrom [] [] _

/-- What an available name stands for among all engines. -/
theorem exists_find?_overlay (havailable : IsAvailable own installation name)
    {all : Entries Factory} (h : (plugins installation).outcome = .ok all) :
    ∃ factory, (all.foldl (fun all e => all.insert e.1 e.2) own).find? name = some factory ∧
      (all.find? name).or (own.find? name) = some factory := by
  have hfound := find?_overlay name all own (nodup_names_loadFrom (by simp [Entries.names]) h)
  have hsome : ((all.find? name).or (own.find? name)).isSome = true := by
    rw [Option.isSome_or, Bool.or_eq_true]
    rcases havailable with hown | hentry
    · exact .inr (Entries.find?_isSome_iff.2 hown)
    · exact .inl (isSome_find?_of_loadFrom h (.inr hentry))
  obtain ⟨factory, hfactory⟩ := Option.isSome_iff_exists.1 hsome
  exact ⟨factory, hfound.trans hfactory, hfactory⟩

theorem create_of_find?_eq_some {factory : Factory} (h : factories.find? name = some factory) :
    create factories name = factory.mapError .making := by
  rw [create, h]
  cases factory <;> rfl

/-- If an available name stands for the same among what is installed, it stands for the same among
all engines. -/
theorem snd_createAvailable_congr (havailable : IsAvailable own installation name)
    (havailable' : IsAvailable own installation' name)
    (hsame : (plugins installation).outcome.map (·.find? name) =
      (plugins installation').outcome.map (·.find? name)) :
    (createAvailable own installation name).2 = (createAvailable own installation' name).2 := by
  unfold createAvailable available
  cases h : (plugins installation).outcome with
  | error failure =>
    cases h' : (plugins installation').outcome with
    | error failure' =>
      rw [h, h'] at hsame
      obtain rfl := Except.error.inj hsame
      simp only [h, h', Except.map]
    | ok all' =>
      rw [h, h'] at hsame
      cases hsame
  | ok all =>
    cases h' : (plugins installation').outcome with
    | error failure' =>
      rw [h, h'] at hsame
      cases hsame
    | ok all' =>
      rw [h, h'] at hsame
      have hfind : all.find? name = all'.find? name := Except.ok.inj hsame
      obtain ⟨factory, hfound, hfactory⟩ := exists_find?_overlay havailable h
      obtain ⟨factory', hfound', hfactory'⟩ := exists_find?_overlay havailable' h'
      rw [hfind, hfactory'] at hfactory
      obtain rfl := Option.some.inj hfactory
      simp only [h, h', Except.map, create_of_find?_eq_some hfound,
        create_of_find?_eq_some hfound']

/-- An entry that escapes leaves no engine under any name. -/
theorem exists_loading_of_escape (own : Entries Factory)
    (h : ∃ entry ∈ installed installation, entry.isTolerable = false) (name : String) :
    ∃ failure, (createAvailable own installation name).2 = .error (.loading failure) := by
  obtain ⟨failure, hfailure⟩ :=
    @exists_outcome_eq_error_iff [] [] (installed installation) |>.2 h
  refine ⟨failure, ?_⟩
  have houtcome : (plugins installation).outcome = .error failure := hfailure
  simp only [createAvailable, available, houtcome, Except.map]

/-- If no entry escapes, it is not for the loading that there is no engine. -/
theorem ne_loading_of_isTolerable (own : Entries Factory)
    (h : ∀ entry ∈ installed installation, entry.isTolerable = true) (name : String)
    (failure : LoadFailure) :
    (createAvailable own installation name).2 ≠ .error (.loading failure) := by
  cases houtcome : (plugins installation).outcome with
  | error cause =>
    obtain ⟨entry, hentry, hescapes⟩ := exists_outcome_eq_error_iff.1 ⟨cause, houtcome⟩
    rw [h entry hentry] at hescapes
    cases hescapes
  | ok all =>
    simp only [createAvailable, available, houtcome, Except.map, create]
    split <;> nofun

theorem mem_installed_iff {entry : EntryPoint} :
    entry ∈ installed (.listed entries) ↔ entry ∈ entries ∧ entry.group = engineGroup := by
  rw [installed, List.mem_filter, decide_eq_true_eq]

theorem forall_mem_installed_iff :
    (∀ entry ∈ installed (.listed entries), entry.isTolerable = true) ↔
      ∀ entry ∈ entries, entry.IsHarmless := by
  simp only [mem_installed_iff, EntryPoint.IsHarmless, and_imp]

/-- Of the entries that are taken out the installed engines are tolerable. -/
theorem installed_without
    (h : Without (fun e => e.name ≠ name ∧ e.IsHarmless) entries entries') :
    Without (fun e => e.name ≠ name ∧ e.isTolerable = true) (installed (.listed entries))
      (installed (.listed entries')) :=
  h.filter _ fun _ hgroup he => ⟨he.1, he.2 (of_decide_eq_true hgroup)⟩

/-- Entries of other names do not make a name available. -/
theorem IsAvailable.without (h : IsAvailable own (.listed entries) name)
    (hwithout : Without (fun e => e.name ≠ name) entries entries') :
    IsAvailable own (.listed entries') name := by
  refine h.imp_right ?_
  rintro ⟨entry, hentry, hname, hfactory⟩
  obtain ⟨hmem, hgroup⟩ := mem_installed_iff.1 hentry
  have hstays := hwithout.mem_of_not hmem (not_not_intro hname)
  exact ⟨entry, mem_installed_iff.2 ⟨hstays, hgroup⟩, hname, hfactory⟩

/-- When harmless entries of other names are taken out, an available name stands for the same, or
the loading ends as it did. -/
theorem snd_createAvailable_without (havailable : IsAvailable own (.listed entries) name)
    (h : Without (fun e => e.name ≠ name ∧ e.IsHarmless) entries entries') :
    (createAvailable own (.listed entries) name).2 =
      (createAvailable own (.listed entries') name).2 := by
  have hnames : Without (fun e => e.name ≠ name) entries entries' := h.mono fun e he => he.1
  exact snd_createAvailable_congr havailable (havailable.without hnames)
    (loadFrom_without (installed_without h) rfl)

end

end Registry

end LintFront
