import LintFront.Proofs.CommandLine.Status
import LintFront.Proofs.Settings.Reading
/-!
# The threshold of a command

What is printed is decided by one number. If it were above one, nothing would ever be printed; if it
were the undefined value, which compares with nothing, then neither. The exit status would be zero
both times, and the command would look as if it had found nothing to complain about.

The number has three origins: a default, the files with settings, and the command line. Files are
merged and then looked at as a whole, and what is asked for there is that the number lies in
between. The text on the command line is read by the library that takes options apart, and what that
lets pass takes the place of the number in the settings without a second look. It is not enough
there to refuse what compares as less than zero or as more than one, since the undefined value does
neither. This is the one hole: `--min-confidence nan` silences every engine.

## Main statements

`Command.threshold_undefined_iff`: the threshold of a command is a number between zero and one, and
what the engine is certain of is printed, unless the text on the command line is read as the
undefined value; then nothing is printed. `Command.MakesReporter.isWithinUnit`: there is no such
exception where a number has to lie between zero and one to be taken.
-/

namespace LintFront

/-! ## 1. Numbers between zero and one -/

namespace Double

/-- Is the number between zero and one? The undefined value is not. -/
def IsWithinUnit (x : Double) : Prop := zero.le x = true ∧ x.le one = true

instance (x : Double) : Decidable x.IsWithinUnit := inferInstanceAs (Decidable (_ ∧ _))

/-- What is neither below zero nor above one is between them, the undefined value aside. -/
theorem isWithinUnit_iff {x : Double} :
    x.IsWithinUnit ↔ x ≠ nan ∧ ¬x.IsBelow zero ∧ ¬one.IsBelow x := by
  unfold IsWithinUnit IsBelow
  cases x with
  | nan => simp [le, zero]
  | infinity negative => cases negative <;> simp [le, zero, one]
  | finite negative grains =>
    simp only [le, zero, one, ne_eq, reduceCtorEq, not_false_eq_true, true_and, decide_eq_true_eq,
      decide_eq_false_iff_not]
    omega

end Double

/-- Is the bound a number between zero and one? -/
def Number.IsWithinUnit (bound : Number) : Prop := ∃ x, bound = .real x ∧ x.IsWithinUnit

/-- The undefined value is not between zero and one. -/
theorem Number.not_isWithinUnit_nan : ¬(real .nan).IsWithinUnit := by
  rintro ⟨x, hx, h⟩
  rw [← Number.real.inj hx] at h
  exact absurd h (by decide)

/-- A value is read as a confidence when it is read as a number between zero and one. -/
theorem Value.asConfidence_eq_ok_iff {v : Value} {x : Double} :
    v.asConfidence = .ok x ↔ v.asReal = .ok x ∧ x.IsWithinUnit := by
  unfold asConfidence
  cases v.asReal with
  | error complaints => simp
  | ok y =>
    rw [withinUnit_eq_ok_iff, Except.ok.injEq]
    constructor
    · rintro ⟨rfl, h⟩
      exact ⟨rfl, h⟩
    · rintro ⟨rfl, h⟩
      exact ⟨rfl, h⟩

/-! ## 2. Where the threshold comes from -/

namespace Settings

theorem isWithinUnit_default : default.minConfidence.IsWithinUnit :=
  ⟨_, rfl, by decide +kernel⟩

/-- What is read as a threshold is within the bounds. -/
theorem isWithinUnit_of_asThreshold {v : Value} {bound : Number} (h : asThreshold v = .ok bound) :
    bound.IsWithinUnit := by
  obtain ⟨x, hx, rfl⟩ := Checked.map_eq_ok_iff.1 h
  exact ⟨x, rfl, (Value.asConfidence_eq_ok_iff.1 hx).2⟩

/-- Settings that are read from a table have a threshold within the bounds. -/
theorem isWithinUnit_of_ofEntries {entries : Entries Value} {settings : Settings}
    (h : ofEntries entries = .ok settings) : settings.minConfidence.IsWithinUnit := by
  have hfield := Entries.field_eq_ok_iff.1 (ofEntries_eq_ok_iff.1 h).1
  cases hfind : entries.find? "min_confidence" with
  | none =>
    rw [hfind] at hfield
    dsimp only at hfield
    rw [hfield]
    exact isWithinUnit_default
  | some v =>
    rw [hfind] at hfield
    exact isWithinUnit_of_asThreshold hfield

end Settings

/-- Settings that are loaded have a threshold within the bounds, whatever the files say. -/
theorem Loaded.isWithinUnit_of_load {disk : Disk} {root : String} {replacement : Option String}
    {loaded : Loaded} (h : load disk root replacement = .ok loaded) :
    loaded.settings.minConfidence.IsWithinUnit := by
  simp only [load, bind, Except.bind] at h
  split at h
  · cases h
  split at h
  · rename_i layers _ made hmade
    cases h
    -- All layers are merged into one table, and only this table is read.
    unfold ofLayers at hmade
    dsimp only at hmade
    split at hmade
    · rename_i settings hsettings
      cases hmade
      exact Settings.isWithinUnit_of_ofEntries hsettings
    · cases hmade
  · cases h

namespace BoundReader

variable {float : String → Option Double}

/-- The reader makes numbers of texts by `float`, and refuses a number only if it compares as less
than zero or as more than one. -/
def IsComparing (float : String → Option Double) (bound : BoundReader) : Prop :=
  ∀ text x, bound text = .ok x ↔
    float text = some x ∧ ¬x.IsBelow .zero ∧ ¬Double.one.IsBelow x

theorem isComparing_comparing (float : String → Option Double) (wording : String → String) :
    (comparing float wording).IsComparing float := by
  intro text x
  rw [comparing]
  cases float text with
  | none => simp
  | some y =>
    dsimp only
    split
    case isTrue hrefused =>
      simp only [reduceCtorEq, Option.some.injEq, false_iff]
      rintro ⟨rfl, hzero, hone⟩
      exact hrefused.elim hzero hone
    case isFalse htaken =>
      simp only [Except.ok.injEq, Option.some.injEq, iff_self_and]
      rintro rfl
      exact not_or.1 htaken

/-- To ask for a number between zero and one is to compare with both, once the undefined value is
not read as a number at all. -/
theorem isComparing_validating :
    validating.IsComparing fun text => (Reading.real? text.toList).filter (· ≠ .nan) := by
  intro text x
  have hreal : (Value.text text).asReal = .ok x ↔ Reading.real? text.toList = some x := by
    rw [Value.asReal]
    cases Reading.real? text.toList <;> simp [Checked.fail]
  have hconfidence : validating text = .ok x ↔ (Value.text text).asConfidence = .ok x := by
    rw [validating]
    cases (Value.text text).asConfidence <;> simp
  have hdefined : (Reading.real? text.toList).filter (· ≠ .nan) = some x ↔
      Reading.real? text.toList = some x ∧ x ≠ .nan := by
    rw [Option.filter_eq_some_iff, decide_eq_true_eq]
  rw [hconfidence, Value.asConfidence_eq_ok_iff, hreal, Double.isWithinUnit_iff, hdefined,
    and_assoc]

example : validating "nan" = .error ComplaintKind.aboveOne.message := by decide

/-- What such a reader takes is a number between zero and one or the undefined value. -/
theorem IsComparing.isWithinUnit_iff {bound : BoundReader} (h : bound.IsComparing float)
    {text : String} {x : Double} (hread : bound text = .ok x) :
    x.IsWithinUnit ↔ float text ≠ some .nan := by
  obtain ⟨hfloat, hzero, hone⟩ := (h text x).1 hread
  rw [Double.isWithinUnit_iff, hfloat, ne_eq, ne_eq, Option.some.injEq]
  exact and_iff_left ⟨hzero, hone⟩

end BoundReader

/-- On the command line is said nothing about the threshold, or the number that the reader makes of
the text that counts. -/
theorem Invocation.minConfidence_of_ofArguments {disk : Disk} {bound : BoundReader}
    {arguments : Arguments} {invocation : Invocation}
    (h : ofArguments disk bound arguments = .ok invocation) :
    (arguments.value? .minConfidence = none ∧ invocation.overrides.minConfidence = none) ∨
    ∃ text x, arguments.value? .minConfidence = some text ∧ bound text = .ok x ∧
      invocation.overrides.minConfidence = some (.real x) := by
  -- The value is read once more when it is taken, so the checks before that need not be looked at.
  simp only [ofArguments, bind, Except.bind, pure, Except.pure] at h
  split at h
  · cases h
  split at h
  · cases h
  rename_i given hgiven
  cases h
  cases hvalue : arguments.value? .minConfidence with
  | none =>
    rw [hvalue] at hgiven
    cases hgiven
    exact .inl ⟨rfl, rfl⟩
  | some text =>
    rw [hvalue, Option.mapM_some, confidence] at hgiven
    cases hread : bound text with
    | error fault =>
      rw [hread] at hgiven
      cases hgiven
    | ok x =>
      rw [hread] at hgiven
      cases hgiven
      exact .inr ⟨text, x, rfl, hread, rfl⟩

/-! ## 3. What the engine is certain of -/

/-- A finding of which the engine is certain reaches every threshold within the bounds. -/
theorem Finding.meets_of_eq_one {finding : Finding} {bound : Number} (h : bound.IsWithinUnit)
    (hcertain : finding.confidence = .one) : finding.meets bound = true := by
  obtain ⟨x, rfl, -, hone⟩ := h
  rw [meets, hcertain]
  exact hone

namespace Reporter

/-- What is printed for a call is part of what is printed for calls among which it is. -/
theorem shown_sublist_due (reporter : Reporter) (first : Nat) {calls : List Call} {turn : Nat}
    {call : Call} (h : calls[turn]? = some call) :
    (reporter.shown (call.engine.inspect (first + turn) call.files call.rules)).Sublist
      (reporter.due first calls) := by
  -- The induction is on the calls, and the turn of the first of them goes up with every call.
  induction calls generalizing first turn with
  | nil => cases h
  | cons head calls ih =>
    rw [due]
    cases turn with
    | zero =>
      obtain rfl := Option.some.inj h
      exact List.sublist_append_left _ _
    | succ turn =>
      have hrest := ih (first + 1) h
      rw [show first + (turn + 1) = first + 1 + turn by omega]
      exact hrest.trans (List.sublist_append_right _ _)

/-- Under a threshold within the bounds everything is shown of which the engine is certain. -/
theorem certain_sublist_shown {reporter : Reporter} (h : reporter.minConfidence.IsWithinUnit)
    (found : List Finding) :
    (found.filter fun f => f.confidence = .one).Sublist (reporter.shown (.findings found)) := by
  apply List.monotone_filter_right
  intro finding hcertain
  exact Finding.meets_of_eq_one h (of_decide_eq_true hcertain)

/-- Under the undefined threshold nothing is due, whatever the engine finds. -/
theorem due_of_nan {reporter : Reporter} (h : reporter.minConfidence = .real .nan) (first : Nat)
    (calls : List Call) : reporter.due first calls = [] := by
  have hshown : ∀ verdict, reporter.shown verdict = [] := by
    intro verdict
    cases verdict with
    | findings found =>
      rw [shown, h, List.filter_eq_nil_iff]
      exact fun finding _ => Bool.false_ne_true
    | _ => rfl
  induction calls generalizing first with
  | nil => rfl
  | cons call calls ih => rw [due, hshown, ih, List.append_nil]

end Reporter

/-! ## 4. Commands -/

namespace Command

/-- What was asked for, the settings and the engine are accepted, and this is the reporter that they
make. -/
def MakesReporter (host : Host) (args : List String) (reporter : Reporter) : Prop :=
  ∃ arguments invocation loaded engine,
    Arguments.read args = .ok arguments ∧
    Invocation.ofArguments host.disk host.bound arguments = .ok invocation ∧
    Loaded.load host.disk host.disk.cwd invocation.config = .ok loaded ∧
    (Stage.creation host (invocation.overrides.apply loaded.settings).analyzer).2 = .ok engine ∧
    reporter = (Stage.linterOf host invocation loaded engine).reporter

variable {host : Host} {args : List String}

/-- The text that counts for the threshold on the command line is read as the undefined value. -/
def SpellsUndefined (float : String → Option Double) (args : List String) : Prop :=
  ∃ arguments text, Arguments.read args = .ok arguments ∧
    arguments.value? .minConfidence = some text ∧ float text = some .nan

/-- What is said on the command line takes the place of the threshold without a second look. So the
threshold is within the bounds unless the undefined value is spelled there. -/
theorem MakesReporter.minConfidence {float : String → Option Double} {reporter : Reporter}
    (h : MakesReporter host args reporter) (hbound : host.bound.IsComparing float) :
    (SpellsUndefined float args ∧ reporter.minConfidence = .real .nan) ∨
      (¬SpellsUndefined float args ∧ reporter.minConfidence.IsWithinUnit) := by
  obtain ⟨arguments, invocation, loaded, engine, hread, hchecked, hloaded, -, rfl⟩ := h
  have hthreshold : (Stage.linterOf host invocation loaded engine).reporter.minConfidence =
      invocation.overrides.minConfidence.getD loaded.settings.minConfidence := rfl
  rw [hthreshold]
  rcases Invocation.minConfidence_of_ofArguments hchecked with
    ⟨hvalue, hgiven⟩ | ⟨text, x, hvalue, htext, hgiven⟩
  · rw [hgiven, Option.getD_none]
    refine .inr ⟨?_, Loaded.isWithinUnit_of_load hloaded⟩
    rintro ⟨other, text, hother, hsome, -⟩
    obtain rfl := Except.ok.inj (hread.symm.trans hother)
    rw [hvalue] at hsome
    cases hsome
  · have hspells : SpellsUndefined float args ↔ float text = some .nan := by
      constructor
      · rintro ⟨other, text', hother, hsome, hnan⟩
        obtain rfl := Except.ok.inj (hread.symm.trans hother)
        obtain rfl := Option.some.inj (hvalue.symm.trans hsome)
        exact hnan
      · exact fun hnan => ⟨arguments, text, hread, hvalue, hnan⟩
    rw [hgiven, Option.getD_some, hspells]
    by_cases hnan : float text = some .nan
    · have hfloat := ((hbound text x).1 htext).1
      exact .inl ⟨hnan, congrArg Number.real (Option.some.inj (hfloat.symm.trans hnan))⟩
    · exact .inr ⟨hnan, x, rfl, (hbound.isWithinUnit_iff htext).2 hnan⟩

/-- Where a number has to lie between zero and one to be taken, the threshold always does. -/
theorem MakesReporter.isWithinUnit {reporter : Reporter} (h : MakesReporter host args reporter)
    (hbound : host.bound = .validating) : reporter.minConfidence.IsWithinUnit := by
  rcases h.minConfidence (hbound ▸ BoundReader.isComparing_validating) with
    ⟨⟨_, text, -, -, hspelled⟩, -⟩ | ⟨-, hwithin⟩
  · obtain ⟨-, hdefined⟩ := Option.filter_eq_some_iff.1 hspelled
    exact absurd rfl (of_decide_eq_true hdefined)
  · exact hwithin

theorem journal_perform (host : Host) (invocation : Invocation) :
    (perform host invocation).journal = ((Stage.lint host invocation).runOn {}).2 := by
  unfold perform Stage.runOn
  rcases StateT.run (ExceptT.run (Stage.lint host invocation)) {} with
    ⟨(error | fault) | status, journal⟩ <;> rfl

/-- On the standard output are the findings of the journal, however the command ends. -/
theorem out_perform (host : Host) (invocation : Invocation) :
    (perform host invocation).output.out = String.join
      ((perform host invocation).journal.findings.map fun f => host.console.echoed f.render) := by
  unfold perform
  rcases StateT.run (ExceptT.run (Stage.lint host invocation)) {} with
    ⟨(error | fault) | status, journal⟩
  · -- The report of a wrong usage goes to the other stream.
    dsimp only
    rw [Output.append_out, Console.out_transcript]
    exact String.append_empty
  · exact Console.out_transcript _ _
  · exact Console.out_transcript _ _

/-- A command that gives anything to an engine has the exit status that its tally calls for, if it
has one. -/
theorem exists_exitStatus_of_calls {invocation : Invocation}
    (h : (perform host invocation).journal.calls ≠ []) {status : Nat}
    (hstatus : (perform host invocation).status = .ok status) :
    ∃ failing : Bool,
      status = exitStatus failing (perform host invocation).journal.tally.suggestions := by
  obtain ⟨ending, journal, hrun, hcourse⟩ := Stage.exists_course host invocation
  unfold perform at h hstatus ⊢
  rw [hrun] at h hstatus ⊢
  -- Wherever the command was used wrongly there is no call, and a fault leaves it without a status.
  cases hcourse with
  | settings error loading => exact absurd rfl h
  | analyzer loaded name available opened loading making opening => exact absurd opening.calls h
  | targets loaded error opened loading planning opening => exact absurd opening.calls h
  | loading fault loading => cases hstatus
  | fault loaded fault later loading other => cases hstatus
  | ended loaded engine opened later prepared hended =>
    refine ⟨(invocation.overrides.apply loaded.settings).setExitStatus, ?_⟩
    dsimp only
    rw [Stage.tally_concluded]
    exact (Except.ok.inj hstatus).symm

/-- A command that gives anything to an engine does so with the reporter that it makes. -/
theorem exists_reporter_of_calls (h : (run host args).journal.calls ≠ []) :
    ∃ reporter, MakesReporter host args reporter ∧ reporter.Balanced (run host args).journal ∧
      (run host args).output.out = String.join
        ((run host args).journal.findings.map fun f => host.console.echoed f.render) ∧
      ∀ status, (run host args).status = .ok status →
        ∃ failing : Bool,
          status = exitStatus failing (run host args).journal.tally.suggestions := by
  -- Nothing is given to an engine before the command line is accepted.
  unfold run at h ⊢
  cases hread : Arguments.read args with
  | error error =>
    rw [hread] at h
    exact absurd rfl h
  | ok arguments =>
    rw [hread] at h
    dsimp only at h ⊢
    split at h
    · exact absurd rfl h
    rename_i hhelp
    rw [if_neg hhelp]
    cases hcheck : Invocation.ofArguments host.disk host.bound arguments with
    | error error =>
      rw [hcheck] at h
      exact absurd rfl h
    | ok invocation =>
      rw [hcheck] at h
      dsimp only at h ⊢
      have hjournal := journal_perform host invocation
      rcases Stage.balanced_lint host invocation with
        ⟨loaded, engine, opened, prepared, hbalanced⟩ | hquiet
      · refine ⟨_, ⟨arguments, invocation, loaded, engine, hread, hcheck, prepared.loading,
          prepared.making, rfl⟩, ?_, out_perform host invocation,
          fun _ => exists_exitStatus_of_calls h⟩
        rw [hjournal]
        exact hbalanced
      · rw [hjournal] at h
        exact absurd hquiet.calls h

/-- The threshold with which a command reports is a number between zero and one, whatever its
arguments and the files with settings say, with one exception: if the text that counts for
`--min-confidence` is read as the undefined value, that is the threshold. If the engine is given
anything, it is given by a reporter with this threshold; the standard output holds what is due for
the calls and nothing else. Among it is, for every call, all that the engine is certain of; but in
the exceptional case it is empty, and the exit status is zero. -/
theorem threshold_undefined_iff {float : String → Option Double} (host : Host)
    (hbound : host.bound.IsComparing float) (args : List String) :
    (∀ reporter, MakesReporter host args reporter →
      (reporter.minConfidence.IsWithinUnit ↔ ¬SpellsUndefined float args) ∧
      (reporter.minConfidence = .real .nan ↔ SpellsUndefined float args)) ∧
    let journal := (run host args).journal
    journal.calls ≠ [] → ∃ reporter, MakesReporter host args reporter ∧
      (∀ call ∈ journal.calls, call = reporter.callOn call.files) ∧
      journal.findings = reporter.due 0 journal.calls ∧
      (run host args).output.out =
        String.join (journal.findings.map fun f => host.console.echoed f.render) ∧
      (¬SpellsUndefined float args → ∀ (turn : Nat) (call : Call) (found : List Finding),
        journal.calls[turn]? = some call →
        call.engine.inspect turn call.files call.rules = .findings found →
        (found.filter fun f => f.confidence = .one).Sublist journal.findings) ∧
      (SpellsUndefined float args → journal.findings = [] ∧ (run host args).output.out = "" ∧
        ∀ status, (run host args).status = .ok status → status = 0) := by
  refine ⟨?threshold, ?printing⟩
  case threshold =>
    intro reporter hmakes
    rcases hmakes.minConfidence hbound with ⟨hspells, hnan⟩ | ⟨hspells, hwithin⟩
    · have hstray : ¬reporter.minConfidence.IsWithinUnit := by
        rw [hnan]
        exact Number.not_isWithinUnit_nan
      exact ⟨iff_of_false hstray (not_not_intro hspells), iff_of_true hnan hspells⟩
    · refine ⟨iff_of_true hwithin hspells, iff_of_false ?_ hspells⟩
      intro hnan
      exact Number.not_isWithinUnit_nan (hnan ▸ hwithin)
  case printing =>
    intro journal hcalls
    obtain ⟨reporter, hmakes, hbalanced, hout, hstatus⟩ := exists_reporter_of_calls hcalls
    refine ⟨reporter, hmakes, hbalanced.calls, hbalanced.findings, hout, ?certain, ?silent⟩
    case certain =>
      intro hspells turn call found hcall hfound
      have hwithin := ((hmakes.minConfidence hbound).resolve_left fun h => hspells h.1).2
      have hshown := reporter.shown_sublist_due 0 hcall
      rw [Nat.zero_add, hfound] at hshown
      rw [hbalanced.findings]
      exact (Reporter.certain_sublist_shown hwithin found).trans hshown
    case silent =>
      intro hspells
      have hnan := ((hmakes.minConfidence hbound).resolve_right fun h => h.1 hspells).2
      have hnone : journal.findings = [] := hbalanced.findings.trans (Reporter.due_of_nan hnan 0 _)
      refine ⟨hnone, ?_, ?_⟩
      · rw [hout, hnone]
        rfl
      · intro status hended
        obtain ⟨failing, rfl⟩ := hstatus status hended
        rw [hbalanced.suggestions, hnone]
        simp [exitStatus]

/-! ## 5. A command that is silenced -/

/-- The number that a text spells. -/
def spelled (text : String) : Option Double := Reading.real? text.toList

/-- The host of the loud engine, with a reader of numbers that only compares them. -/
def hushedHost : Host := { loudHost with bound := .comparing spelled fun text => text }

theorem isComparing_hushedHost : hushedHost.bound.IsComparing spelled := by
  unfold hushedHost
  dsimp only
  exact BoundReader.isComparing_comparing spelled fun text => text

/-- The command line that lets findings count, with the undefined value for a threshold. -/
def hushedLine : List String := "--min-confidence" :: "nan" :: loudLine

/-- What that command line overrides. -/
def hushedOverrides : Overrides :=
  { minConfidence := some (.real .nan), setExitStatus := some true, analyzer := some "loud" }

theorem read_hushedLine : Arguments.read hushedLine =
    .ok (loudArguments.addMention .minConfidence (.value "nan")) := by
  have hspelling : Spelling.find? "--min-confidence" = some ⟨.minConfidence, none⟩ := by
    decide +kernel
  have hcut : Arguments.cut "--min-confidence" = ("--min-confidence", none) := by decide +kernel
  have hrest := read_loudLine
  rw [Arguments.read] at hrest ⊢
  unfold hushedLine
  rw [Arguments.readFrom, if_neg (by decide), if_neg (by decide), hcut]
  dsimp only
  rw [hspelling, Arguments.readFrom, hrest]
  rfl

/-- The command line is accepted: nothing is wrong with the undefined value. -/
theorem exists_invocation_hushedHost : ∃ invocation,
    Invocation.ofArguments hushedHost.disk hushedHost.bound
      (loudArguments.addMention .minConfidence (.value "nan")) = .ok invocation ∧
    invocation.config = none ∧ invocation.targets = ["x.py"] ∧
    invocation.overrides = hushedOverrides :=
  ⟨_, rfl, by decide, rfl, rfl⟩

theorem creation_withBound (host : Host) (bound : BoundReader) (name : String) :
    Stage.creation { host with bound } name = Stage.creation host name := by
  unfold Stage.creation
  rfl

/-- Once the command line is accepted it is of no account how numbers are read. -/
theorem lint_withBound (host : Host) (bound : BoundReader) (invocation : Invocation) :
    Stage.lint { host with bound } invocation = Stage.lint host invocation := by
  unfold Stage.lint Stage.settings Stage.engine Stage.linter
  rfl

/-- The engine is called, and what it is certain of is not printed. -/
theorem lint_hushedHost {invocation : Invocation} (hconfig : invocation.config = none)
    (htargets : invocation.targets = ["x.py"])
    (hoverrides : invocation.overrides = hushedOverrides) :
    ((Stage.lint hushedHost invocation).runOn {}).1 = .ok 0 ∧
      ((Stage.lint hushedHost invocation).runOn {}).2.calls.length = 1 ∧
      ((Stage.lint hushedHost invocation).runOn {}).2.findings = [] := by
  have hlint : Stage.lint hushedHost invocation = Stage.lint loudHost invocation :=
    lint_withBound loudHost _ invocation
  rw [hlint, runOn_lint_loudHost hconfig htargets (by rw [hoverrides]; rfl), hoverrides]
  decide +kernel

theorem run_hushedHost : (run hushedHost hushedLine).journal.calls.length = 1 ∧
    (run hushedHost hushedLine).journal.findings = [] ∧
    (run hushedHost hushedLine).status = .ok 0 := by
  obtain ⟨invocation, hchecked, hconfig, htargets, hoverrides⟩ := exists_invocation_hushedHost
  obtain ⟨hended, hcalls, hfindings⟩ := lint_hushedHost hconfig htargets hoverrides
  have hhelp : (loudArguments.addMention .minConfidence (.value "nan")).has .help = false := by
    decide
  have hrun : run hushedHost hushedLine = perform hushedHost invocation := by
    rw [run, read_hushedLine]
    dsimp only
    rw [hhelp, hchecked]
    rfl
  rw [hrun, journal_perform]
  exact ⟨hcalls, hfindings, status_perform hended⟩

/-- The reporter of that command has the loud engine, and a threshold that nothing reaches. -/
theorem MakesReporter.hushed {reporter : Reporter}
    (h : MakesReporter hushedHost hushedLine reporter) :
    reporter.engine = loudEngine ∧ reporter.minConfidence = .real .nan := by
  obtain ⟨arguments, invocation, loaded, engine, hread, hchecked, hloaded, hmade, rfl⟩ := h
  obtain rfl := Except.ok.inj (read_hushedLine.symm.trans hread)
  obtain ⟨invocation', hchecked', hconfig, -, hoverrides⟩ := exists_invocation_hushedHost
  obtain rfl := Except.ok.inj (hchecked'.symm.trans hchecked)
  have hdisk : hushedHost.disk = loudHost.disk := rfl
  rw [hconfig, hdisk, load_loudHost] at hloaded
  obtain rfl := Except.ok.inj hloaded
  have hcreation : Stage.creation hushedHost = Stage.creation loudHost :=
    funext (creation_withBound loudHost _)
  rw [hoverrides, hcreation] at hmade
  have hloud : (Stage.creation loudHost "loud").2 = .ok loudEngine := by cbv
  obtain rfl := Except.ok.inj (hloud.symm.trans hmade)
  refine ⟨rfl, ?_⟩
  show (invocation'.overrides.apply _).minConfidence = _
  rw [hoverrides]
  rfl

/-- The undefined value is taken for a threshold. What the engine is certain of is then not printed,
and the command ends as if nothing had been found. -/
theorem run_silenced :
    hushedHost.bound.IsComparing spelled ∧
    (∃ reporter, MakesReporter hushedHost hushedLine reporter ∧
      ¬reporter.minConfidence.IsWithinUnit ∧
      ∃ files finding, (run hushedHost hushedLine).journal.calls = [reporter.callOn files] ∧
        reporter.engine.inspect 0 files reporter.rules = .findings [finding] ∧
        finding.confidence = .one) ∧
    (run hushedHost hushedLine).journal.findings = [] ∧
    (run hushedHost hushedLine).output.out = "" ∧
    (run hushedHost hushedLine).status = .ok 0 := by
  obtain ⟨hlength, hfindings, hstatus⟩ := run_hushedHost
  have hcalls : (run hushedHost hushedLine).journal.calls ≠ [] :=
    List.ne_nil_of_length_eq_add_one hlength
  obtain ⟨reporter, hmakes, hbalanced, hout, -⟩ := exists_reporter_of_calls hcalls
  obtain ⟨hengine, hthreshold⟩ := hmakes.hushed
  obtain ⟨call, hcall⟩ := List.length_eq_one_iff.1 hlength
  have hcallOn : call = reporter.callOn call.files :=
    hbalanced.calls call (by rw [hcall]; exact List.mem_singleton_self call)
  have hstray : ¬reporter.minConfidence.IsWithinUnit := by
    rw [hthreshold]
    exact Number.not_isWithinUnit_nan
  have hsilent : (run hushedHost hushedLine).output.out = "" := by
    rw [hout, hfindings]
    rfl
  refine ⟨isComparing_hushedHost, ?_, hfindings, hsilent, hstatus⟩
  refine ⟨reporter, hmakes, hstray, call.files,
    { position := { file := "x.py" }, text := "fault", confidence := .one }, ?_, ?_, rfl⟩
  · rw [hcall, ← hcallOn]
  · rw [hengine]
    rfl

/-- The same command, as a case of what holds of all. -/
theorem undefined_hushedHost : hushedHost.bound.IsComparing spelled ∧
    (run hushedHost hushedLine).journal.calls ≠ [] ∧ SpellsUndefined spelled hushedLine ∧
    ∃ reporter, MakesReporter hushedHost hushedLine reporter ∧
      reporter.minConfidence = .real .nan ∧
      (run hushedHost hushedLine).journal.findings = [] := by
  have hcalls : (run hushedHost hushedLine).journal.calls ≠ [] :=
    List.ne_nil_of_length_eq_add_one run_hushedHost.1
  have hspells : SpellsUndefined spelled hushedLine :=
    ⟨_, "nan", read_hushedLine, by decide, by decide⟩
  have hgeneral := threshold_undefined_iff hushedHost isComparing_hushedHost hushedLine
  obtain ⟨reporter, hmakes, -, -, -, -, hsilent⟩ := hgeneral.2 hcalls
  have hthreshold := (hgeneral.1 reporter hmakes).2.2 hspells
  exact ⟨isComparing_hushedHost, hcalls, hspells, reporter, hmakes, hthreshold, (hsilent hspells).1⟩

end Command

end LintFront
