import LintFront.Run.Orchestrate
/-!
# Parts of a run

A part of a run is a function of the journal. Here each of the parts that a run is put together from
is told by what it makes of a journal, so that nothing later opens the monad again.

## Main statements

`Run.runOn_bind`: a part and what follows it. `Run.Keeps.bind`, `Run.Keeps.forM`: a property of
journals that every part keeps, however it ends, is kept by the whole.
-/

namespace LintFront.Run

variable {α β : Type}

/-! ## 1. What a part makes of a journal -/

/-- Parts that make the same of every journal are the same. -/
theorem ext {a b : Run α} (h : ∀ journal, a.runOn journal = b.runOn journal) : a = b := funext h

@[simp] theorem runOn_pure (a : α) (journal : Journal) :
    (pure a : Run α).runOn journal = (.ok a, journal) := rfl

@[simp] theorem runOn_throw (fault : RunFault) (journal : Journal) :
    (throw fault : Run α).runOn journal = (.error fault, journal) := rfl

@[simp] theorem runOn_get (journal : Journal) :
    (get : Run Journal).runOn journal = (.ok journal, journal) := rfl

@[simp] theorem runOn_record (event : Event) (journal : Journal) :
    (record event).runOn journal = (.ok (), { journal with events := journal.events ++ [event] }) :=
  rfl

@[simp] theorem runOn_countUnit (journal : Journal) :
    countUnit.runOn journal =
      (.ok (), { journal with tally := { journal.tally with units := journal.tally.units + 1 } }) :=
  rfl

@[simp] theorem runOn_countFinding (journal : Journal) :
    countFinding.runOn journal =
      (.ok (), { journal with
        tally := { journal.tally with suggestions := journal.tally.suggestions + 1 } }) :=
  rfl

/-- What follows a part is done to the journal that the part leaves, unless the part has ended the
run. -/
theorem runOn_bind (run : Run α) (next : α → Run β) (journal : Journal) :
    (run >>= next).runOn journal =
      match run.runOn journal with
      | (.ok a, later) => (next a).runOn later
      | (.error fault, later) => (.error fault, later) := by
  show (ExceptT.bindCont next (run.runOn journal).1).run (run.runOn journal).2 = _
  rcases run.runOn journal with ⟨_ | _, _⟩ <;> rfl

theorem throw_bind (fault : RunFault) (next : α → Run β) :
    ((throw fault : Run α) >>= next) = throw fault := by
  apply ext
  intro journal
  rw [runOn_bind, runOn_throw, runOn_throw]

/-! ## 2. What every part keeps -/

/-- Whatever comes of the part, the journal has the property afterwards if it had it before. -/
def Keeps (inv : Journal → Prop) (run : Run α) : Prop :=
  ∀ journal, inv journal → inv (run.runOn journal).2

namespace Keeps

variable {inv : Journal → Prop}

theorem pure (a : α) : Keeps inv (Pure.pure a : Run α) := fun _ h => h

theorem throw (fault : RunFault) : Keeps inv (MonadExcept.throw fault : Run α) := fun _ h => h

theorem bind {run : Run α} {next : α → Run β} (hrun : Keeps inv run)
    (hnext : ∀ a, Keeps inv (next a)) : Keeps inv (run >>= next) := by
  intro journal h
  have hlater := hrun journal h
  rw [runOn_bind]
  -- A fault leaves the journal as the first part left it, so both endings rest on `hlater`.
  revert hlater
  rcases run.runOn journal with ⟨fault | a, later⟩ <;> intro hlater
  · exact hlater
  · exact hnext a later hlater

theorem forM {ι : Type} {part : ι → Run Unit} (items : List ι)
    (hpart : ∀ i ∈ items, Keeps inv (part i)) : Keeps inv (items.forM part) := by
  induction items with
  | nil => exact pure ()
  | cons i items ih =>
    exact bind (hpart i (by simp)) fun _ => ih fun j hj => hpart j (by simp [hj])

end Keeps

end LintFront.Run
