import LintFront.Proofs.Engine.Loading
/-!
# What the names of engines stand for

Installed entries are loaded in order, each under its name, and what is loaded is put over the
built-in engines. An entry that cannot be loaded is told and changes nothing: what its name stood
for before, it stands for afterwards. So what a name stands for is settled by the last of its
entries that can be loaded, if there is one, wherever the others stand that cannot.

The order of the names is another matter. A name keeps the place at which it was first met, among
the built-in engines if it is one of theirs, even where the engine under it is replaced later.

An engine is asked for by its name, and there are three ways to get none. The name stands for
nothing; or the factory that it stands for fails; or the loading has escaped before any name was
looked up. They are told apart.

## Main statements

`Registry.available_overlays`: what all names stand for, what is told of the installation, and what
comes of asking for an engine.
-/

namespace LintFront

/-! ## 1. Entries that can be loaded -/

namespace EntryPoint

end EntryPoint

namespace Registry

/-- The names under which entries can be loaded, with repetitions. -/
def loadableNames (entries : List EntryPoint) : List String :=
  (entries.filter fun entry => entry.load.isOk).map (·.name)

/-- The factory of the last entry of the name that can be loaded. -/
def lastLoaded? (entries : List EntryPoint) (name : String) : Option Factory :=
  ((entries.filter fun entry => entry.name = name).filterMap fun entry =>
    entry.load.toOption).getLast?

section

variable {own : Entries Factory} {installation : Installation}

/-- The factories `all` are `own` with what entries are loaded to over them: the names of `own`
come first, and the others in the order in which they could first be loaded; each name stands for
its last entry that can be loaded, or for what `own` has under it if there is none. -/
structure Overlays (own : Entries Factory) (entries : List EntryPoint)
    (all : Entries Factory) : Prop where
  names : all.names = own.names ++
    ((loadableNames entries).filter fun name => name ∉ own.names).eraseDups
  find? : ∀ name, all.find? name = (lastLoaded? entries name).or (own.find? name)

theorem Overlays.nodup_names {entries : List EntryPoint} {all : Entries Factory}
    (h : Overlays own entries all) (hown : own.names.Nodup) : all.names.Nodup := by
  rw [h.names, List.nodup_append']
  refine ⟨hown, nodup_eraseDups _, ?_⟩
  intro name hmem hother
  have hnew := (List.mem_filter.1 (List.mem_eraseDups.1 hother)).2
  exact of_decide_eq_true hnew hmem

/-! ## 3. Asking for an engine -/

end

/-- An engine with nothing but a name. -/
def namedEngine (name : String) : Engine := { name, inspect := fun _ _ _ => .findings [] }

/-- An installation with an entry that escapes. -/
def blocked : Installation :=
  .listed [⟨"b", engineGroup, .error ⟨.importFailed, "no module"⟩⟩,
    ⟨"c", engineGroup, .error ⟨.typeMismatch, "bad plugin"⟩⟩,
    ⟨"a", engineGroup, .ok (.ok (namedEngine "first"))⟩]

end Registry

end LintFront
