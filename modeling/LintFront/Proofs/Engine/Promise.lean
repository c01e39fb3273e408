import LintFront.Engine.SyntaxEngine
import LintFront.Proofs.Run.Endings
import LintFront.Proofs.Run.Order
import Mathlib.Data.List.Forall2
/-!
# The built-in engine and its promise

An engine promises to answer: with findings, or by refusing the unit with a message. The built-in
engine answers as its parser does. It refuses a unit when files of it do not parse, and describes
each of them, in the order in which it was given them. What it says of one file never keeps it from
going on to the next.

But it passes on what the parser itself fails with. The promise is therefore kept as far as the
parser *judges* the files, whichever way it judges them, and no further: a file on which the parser
fails ends the unit without an answer, and the run with it.

## Main statements

`SyntaxEngine.inspect_answers`: what the engine answers, and when it does not answer. For runs the
measure is the run in which all files parse: as far as the parser judges the files, a run with the
engine is given the same units and ends in the same way.
-/

namespace LintFront

/-! ## 1. What is said of files -/

namespace SyntaxEngine

/-- What is said of the file at `path` when the parser makes the outcome of it. -/
inductive Describes (path : String) : ParseOutcome → String → Prop where
  | broken (line column : Option Int) (fault : Option String) :
      Describes path (.broken line column fault)
        (path ++ ":" ++ toString (line.getD 0) ++ ":" ++ toString (column.getD 0) ++ ": " ++
          fault.getD "None")
  | unusable (message : String) : Describes path (.unusable message) (path ++ ": " ++ message)

theorem Describes.isPrefix {path description : String} {outcome : ParseOutcome}
    (h : Describes path outcome description) : path.toList <+: description.toList := by
  cases h <;> simp only [String.toList_append, List.append_assoc] <;> exact List.prefix_append _ _

theorem problem?_eq_some_iff {path description : String} {outcome : ParseOutcome} :
    problem? path outcome = some description ↔ Describes path outcome description := by
  constructor
  · intro h
    cases outcome with
    | parses => cases h
    | failed message => cases h
    | broken line column fault =>
      obtain rfl := Option.some.inj h
      exact .broken line column fault
    | unusable message =>
      obtain rfl := Option.some.inj h
      exact .unusable message
  · rintro (_ | _) <;> rfl

theorem problem?_eq_none_iff {path : String} {outcome : ParseOutcome} :
    problem? path outcome = none ↔ outcome = .parses ∨ ∃ message, outcome = .failed message := by
  cases outcome <;> simp [problem?]

/-- The parser judges the files: it fails on none of them. -/
def Judges (parse : SourceParser) (files : Sources) : Prop :=
  ∀ file ∈ files, ∀ message, parse file.1 file.2 ≠ .failed message

/-- The parser fails on one of the files, and judges those that come before it. -/
def FailsOn (parse : SourceParser) (files : Sources) (message : String) : Prop :=
  ∃ before path content after, files = before ++ (path, content) :: after ∧
    Judges parse before ∧ parse path content = .failed message

/-- The message describes the files that do not parse, each of them once and in order, and begins
each description with the path of the file. -/
def IsRefusal (parse : SourceParser) (files : Sources) (message : String) : Prop :=
  ∃ descriptions, message = "; ".intercalate descriptions ∧
    List.Forall₂ (fun file description =>
        Describes file.1 (parse file.1 file.2) description ∧
          file.1.toList <+: description.toList)
      (files.filter fun file => parse file.1 file.2 ≠ .parses) descriptions

/-! ## 2. What the engine answers -/

variable {parse : SourceParser} {files : Sources}

/-- What the parser makes of the files, each with its path. -/
def outcomes (parse : SourceParser) (files : Sources) : List (String × ParseOutcome) :=
  files.map fun file => (file.1, parse file.1 file.2)

theorem failure?_outcomes_eq_none_iff : failure? (outcomes parse files) = none ↔
    Judges parse files := by
  rw [failure?, outcomes, List.findSome?_eq_none_iff, List.forall_mem_map]
  refine forall₂_congr fun file _ => ?_
  cases parse file.1 file.2 <;> simp

theorem failure?_outcomes_eq_some_iff {message : String} :
    failure? (outcomes parse files) = some message ↔ FailsOn parse files message := by
  rw [failure?, outcomes, List.findSome?_map, List.findSome?_eq_some_iff]
  constructor
  · rintro ⟨before, ⟨path, content⟩, after, rfl, hfails, hbefore⟩
    refine ⟨before, path, content, after, rfl, ?_, ?_⟩
    · rintro file hfile cause hcause
      have := hbefore file hfile
      simp [hcause] at this
    · revert hfails
      simp only [Function.comp_apply]
      cases parse path content <;> simp
  · rintro ⟨before, path, content, after, rfl, hbefore, hfails⟩
    refine ⟨before, (path, content), after, rfl, ?_, ?_⟩
    · simp [hfails]
    · intro file hfile
      have := hbefore file hfile
      revert this
      simp only [Function.comp_apply]
      cases parse file.1 file.2 <;> simp

/-- Of files that the parser judges, those that do not parse are described one after the other. -/
theorem forall₂_problems (h : Judges parse files) :
    List.Forall₂ (fun file description => Describes file.1 (parse file.1 file.2) description)
      (files.filter fun file => parse file.1 file.2 ≠ .parses)
      ((outcomes parse files).filterMap fun o => problem? o.1 o.2) := by
  rw [outcomes, List.filterMap_map, Function.comp_def]
  dsimp only
  induction files with
  | nil => exact .nil
  | cons file files ih =>
    obtain ⟨hjudged, hrest⟩ := List.forall_mem_cons.1 h
    cases hsaid : problem? file.1 (parse file.1 file.2) with
    | none =>
      have hparses : parse file.1 file.2 = .parses :=
        (problem?_eq_none_iff.1 hsaid).resolve_right fun ⟨message, hfails⟩ => hjudged message hfails
      rw [List.filter_cons_of_neg (by simp [hparses]), List.filterMap_cons]
      simpa only [hsaid] using ih hrest
    | some description =>
      have hfaulty : parse file.1 file.2 ≠ .parses := by
        intro hparses
        rw [hparses] at hsaid
        cases hsaid
      rw [List.filter_cons_of_pos (by simp [hfaulty]), List.filterMap_cons]
      simpa only [hsaid] using .cons (problem?_eq_some_iff.1 hsaid) (ih hrest)

theorem verdict_eq_crashed_iff {message : String} :
    verdict (outcomes parse files) = .crashed message ↔ FailsOn parse files message := by
  rw [← failure?_outcomes_eq_some_iff, verdict]
  cases failure? (outcomes parse files) with
  | some cause => simp
  | none =>
    dsimp only
    split <;> simp

/-- Files that the parser judges are refused, unless all of them parse. -/
theorem verdict_of_judges (h : Judges parse files) :
    ((∀ file ∈ files, parse file.1 file.2 = .parses) ∧
      verdict (outcomes parse files) = .findings []) ∨
    (¬(∀ file ∈ files, parse file.1 file.2 = .parses) ∧
      ∃ message, verdict (outcomes parse files) = .refused message ∧
        IsRefusal parse files message) := by
  have hproblems := forall₂_problems h
  rw [verdict, failure?_outcomes_eq_none_iff.2 h]
  dsimp only
  -- The descriptions are as many as the files that do not parse.
  split
  · rename_i hnone
    rw [hnone, List.forall₂_nil_right_iff] at hproblems
    simp only [ne_eq, List.filter_eq_nil_iff, decide_not] at hproblems
    exact .inl ⟨fun file hfile => by simpa using hproblems file hfile, rfl⟩
  · rename_i hsome
    refine .inr ⟨fun hall => hsome ?_, _, rfl, _, rfl, ?_⟩
    · have hnone : (files.filter fun file => parse file.1 file.2 ≠ .parses) = [] := by
        simpa using hall
      rwa [hnone, List.forall₂_nil_left_iff] at hproblems
    · exact hproblems.imp fun file description hsaid => ⟨hsaid, hsaid.isPrefix⟩

/-- There are never findings, and there is an answer without any exactly when all files parse. -/
theorem verdict_eq_findings_iff {found : List Finding} :
    verdict (outcomes parse files) = .findings found ↔
      found = [] ∧ ∀ file ∈ files, parse file.1 file.2 = .parses := by
  constructor
  · intro hfound
    have hjudges : Judges parse files := by
      rw [← failure?_outcomes_eq_none_iff, Option.eq_none_iff_forall_ne_some]
      intro message hfails
      rw [verdict_eq_crashed_iff.2 (failure?_outcomes_eq_some_iff.1 hfails)] at hfound
      cases hfound
    rcases verdict_of_judges hjudges with ⟨hall, hnone⟩ | ⟨-, message, hrefused, -⟩
    · rw [hnone] at hfound
      exact ⟨(Verdict.findings.inj hfound).symm, hall⟩
    · rw [hrefused] at hfound
      cases hfound
  · rintro ⟨rfl, hall⟩
    have hjudges : Judges parse files := by
      intro file hfile message hfails
      rw [hall file hfile] at hfails
      cases hfails
    exact (verdict_of_judges hjudges).resolve_right (fun hnot => hnot.1 hall) |>.2

end SyntaxEngine

/-! ## 3. Runs with a steady engine that may crash -/

namespace Reporter

/-- The message with which the engine crashes on files, if it does. -/
def crash? (reporter : Reporter) (files : Sources) : Option String :=
  match reporter.verdictFor files with
  | .crashed message => some message
  | _ => none

theorem crash?_eq_some_iff {reporter : Reporter} {files : Sources} {message : String} :
    reporter.crash? files = some message ↔ reporter.verdictFor files = .crashed message := by
  unfold crash?
  cases reporter.verdictFor files <;> simp

theorem crash?_eq_none_iff {reporter : Reporter} {files : Sources} :
    reporter.crash? files = none ↔ ∀ message, reporter.verdictFor files ≠ .crashed message := by
  simp only [Option.eq_none_iff_forall_ne_some, ne_eq, crash?_eq_some_iff]

theorem exists_answer_of_crash?_eq_none {reporter : Reporter} {files : Sources}
    (h : reporter.crash? files = none) :
    ∃ n, reporter.answer (reporter.verdictFor files) = .ok n := by
  rw [crash?_eq_none_iff] at h
  cases hverdict : reporter.verdictFor files with
  | crashed message => exact absurd hverdict (h message)
  | findings found => exact ⟨_, rfl⟩
  | refused message => exact ⟨_, rfl⟩

variable {reporter : Reporter} (steady : reporter.engine.IsSteady)

include steady

/-- A steady engine that crashes on files ends the trace with them. -/
theorem outcome_traceFrom_of_crash {files : Sources} {message : String}
    (h : reporter.crash? files = some message) (turn : Nat) (outcome : Except RunFault Unit)
    (moves : List Move) :
    (reporter.traceFrom outcome turn (.give files :: moves)).outcome = .error (.crash message) := by
  have hverdict : reporter.engine.inspect turn files reporter.rules =
    reporter.verdictFor files := steady turn 0 files _
  rw [traceFrom, hverdict, crash?_eq_some_iff.1 h]
  rfl

/-- If it answers, the trace goes on. -/
theorem traceFrom_of_answer {files : Sources} (h : reporter.crash? files = none) (turn : Nat)
    (outcome : Except RunFault Unit) (moves : List Move) :
    (reporter.traceFrom outcome turn (.give files :: moves)).outcome =
        (reporter.traceFrom outcome (turn + 1) moves).outcome ∧
      (reporter.traceFrom outcome turn (.give files :: moves)).calls =
        reporter.callOn files :: (reporter.traceFrom outcome (turn + 1) moves).calls := by
  have hverdict : reporter.engine.inspect turn files reporter.rules =
    reporter.verdictFor files := steady turn 0 files _
  obtain ⟨n, hanswer⟩ := exists_answer_of_crash?_eq_none h
  rw [traceFrom, hverdict, hanswer]
  dsimp only
  rw [Trace.outcome_after, Trace.calls_after, calls_hearing, List.singleton_append]
  exact ⟨rfl, rfl⟩

/-- Moves end as told, unless a steady engine crashes on files of them: then the first such files
end them. If it does not, the moves are made to the last. -/
theorem traceFrom_ends (turn : Nat) (outcome : Except RunFault Unit) (moves : List Move) :
    ((moves.filterMap Move.given?).findSome? reporter.crash? = none →
      (reporter.traceFrom outcome turn moves).outcome = outcome ∧
        (reporter.traceFrom outcome turn moves).calls =
          (moves.filterMap Move.given?).map reporter.callOn) ∧
    ∀ message, (moves.filterMap Move.given?).findSome? reporter.crash? = some message →
      (reporter.traceFrom outcome turn moves).outcome = .error (.crash message) := by
  induction moves generalizing turn with
  | nil => exact ⟨fun _ => ⟨rfl, rfl⟩, nofun⟩
  | cons move moves ih =>
    cases move with
    | note message => exact ih turn
    | fail message => exact ih turn
    | give files =>
      rw [List.filterMap_cons_some (show (Move.give files).given? = some files from rfl),
        List.findSome?_cons]
      cases hcrash : reporter.crash? files with
      | some message =>
        refine ⟨nofun, fun cause hcause => ?_⟩
        obtain rfl : message = cause := Option.some.inj hcause
        exact outcome_traceFrom_of_crash steady hcrash turn outcome moves
      | none =>
        -- On an answer the moves go on, and the induction says how they end.
        obtain ⟨houtcome, hcalls⟩ := traceFrom_of_answer steady hcrash turn outcome moves
        obtain ⟨hjudged, hcrashed⟩ := ih (turn + 1)
        rw [houtcome, hcalls, List.map_cons]
        refine ⟨fun hnone => ?_, hcrashed⟩
        obtain ⟨hend, hrest⟩ := hjudged hnone
        exact ⟨hend, congrArg _ hrest⟩

end Reporter

namespace Linter

variable {disk : Disk}

/-- No script is ended by a crash, which is for the engine alone. -/
theorem outcome_script_ne_crash (linter : Linter) (args : List String) (message : String) :
    (linter.script disk args).outcome ≠ .error (.crash message) := by
  intro hcrash
  rw [Script.outcome_eq_error_iff, script] at hcrash
  split at hcrash
  · cases hcrash
  · obtain ⟨fault, hfault⟩ := (Script.faultsOnly_of_ending_eq_none rfl).andThen
      (linter.faultsOnly_scriptOfPlan disk _) _ hcrash
    cases hfault

/-- The linter with the built-in engine over a parser. -/
def parsing (linter : Linter) (parse : SourceParser) : Linter :=
  { linter with reporter := { linter.reporter with engine := SyntaxEngine.engine parse } }

end Linter

namespace SyntaxEngine

theorem isSteady_engine (parse : SourceParser) : (engine parse).IsSteady := fun _ _ _ _ => rfl

theorem crash?_parsing_eq_none_iff {linter : Linter} :
    (linter.parsing parse).reporter.crash? files = none ↔ Judges parse files := by
  rw [Reporter.crash?_eq_none_iff, ← failure?_outcomes_eq_none_iff,
    Option.eq_none_iff_forall_ne_some]
  exact forall_congr' fun message =>
    not_congr (verdict_eq_crashed_iff.trans failure?_outcomes_eq_some_iff.symm)

theorem crash?_parsing_eq_some_iff {linter : Linter} {message : String} :
    (linter.parsing parse).reporter.crash? files = some message ↔ FailsOn parse files message :=
  Reporter.crash?_eq_some_iff.trans verdict_eq_crashed_iff

/-- The parser that finds no fault with any file. -/
def lenient : SourceParser := fun _ _ => .parses

theorem judges_lenient (files : Sources) : Judges lenient files := fun _ _ _ => nofun

/-- A run with the built-in engine: how it ends, and what the engine was given. -/
theorem run_parsing (parse : SourceParser) (linter : Linter) (disk : Disk) (args : List String)
    (tally : Tally) :
    let crash? := (linter.script disk args).given.findSome? (linter.parsing parse).reporter.crash?
    let result := ((linter.parsing parse).run disk args).runOn { tally }
    (crash? = none → result.1 = (linter.script disk args).outcome ∧
      result.2.calls.map (·.files) = (linter.script disk args).given) ∧
    ∀ message, crash? = some message → result.1 = .error (.crash message) := by
  have steady : (linter.parsing parse).reporter.engine.IsSteady := isSteady_engine parse
  obtain ⟨hjudged, hcrashed⟩ := Reporter.traceFrom_ends steady tally.units
    (linter.script disk args).outcome (linter.script disk args).moves
  have hscript : (linter.parsing parse).script disk args = linter.script disk args := rfl
  dsimp only
  rw [Linter.runOn_run, hscript, Reporter.trace, Journal.calls_extended]
  refine ⟨fun hnone => ?_, hcrashed⟩
  obtain ⟨houtcome, hcalls⟩ := hjudged hnone
  rw [Trace.calls] at hcalls
  refine ⟨houtcome, ?_⟩
  simp [Journal.calls, hcalls, Script.given, Reporter.callOn, Function.comp_def]

/-- If the parser judges all that a run gives to the engine, the run ends as its script says. -/
theorem run_parsing_of_judges {linter : Linter} {disk : Disk} {args : List String} (tally : Tally)
    (h : ∀ files ∈ (linter.script disk args).given, Judges parse files) :
    (((linter.parsing parse).run disk args).runOn { tally }).1 =
        (linter.script disk args).outcome ∧
      (((linter.parsing parse).run disk args).runOn { tally }).2.calls.map (·.files) =
        (linter.script disk args).given := by
  refine (run_parsing parse linter disk args tally).1 (List.findSome?_eq_none_iff.2 ?_)
  exact fun files hfiles => crash?_parsing_eq_none_iff.2 (h files hfiles)

/-- A run ends by a crash at the first unit that holds a file on which the parser fails. -/
theorem run_parsing_eq_crash_iff (linter : Linter) (disk : Disk) (args : List String)
    (tally : Tally) (message : String) :
    (((linter.parsing parse).run disk args).runOn { tally }).1 = .error (.crash message) ↔
      ∃ before files after, (linter.script disk args).given = before ++ files :: after ∧
        (∀ earlier ∈ before, Judges parse earlier) ∧ FailsOn parse files message := by
  obtain ⟨hjudged, hcrashed⟩ := run_parsing parse linter disk args tally
  have hfirst : (((linter.parsing parse).run disk args).runOn { tally }).1 =
        .error (.crash message) ↔
      (linter.script disk args).given.findSome? (linter.parsing parse).reporter.crash? =
        some message := by
    refine ⟨fun hcrash => ?_, hcrashed message⟩
    cases hfound : (linter.script disk args).given.findSome?
        (linter.parsing parse).reporter.crash? with
    | none =>
      rw [(hjudged hfound).1] at hcrash
      exact absurd hcrash (linter.outcome_script_ne_crash args message)
    | some cause =>
      rw [hcrashed cause hfound] at hcrash
      simpa using hcrash
  rw [hfirst, List.findSome?_eq_some_iff]
  simp only [crash?_parsing_eq_some_iff, crash?_parsing_eq_none_iff]
  exact exists₃_congr fun _ _ _ => and_congr_right fun _ => and_comm

/-- The engine finds nothing if all files parse, and otherwise refuses the files that its parser
judges, describing those that do not parse; what the parser fails on first is what the engine
crashes with. So a run is given the same units as if all files parsed, and ends in the same way,
unless the parser fails on a file of them, and then it ends there. -/
theorem inspect_answers (parse : SourceParser) (turn : Nat) (files : Sources)
    (rules : RuleSelection) :
    (∀ found, (engine parse).inspect turn files rules = .findings found ↔
      found = [] ∧ ∀ file ∈ files, parse file.1 file.2 = .parses) ∧
    (Judges parse files → ¬(∀ file ∈ files, parse file.1 file.2 = .parses) →
      ∃ message, (engine parse).inspect turn files rules = .refused message ∧
        IsRefusal parse files message) ∧
    (∀ message, (engine parse).inspect turn files rules = .crashed message ↔
      FailsOn parse files message) ∧
    ∀ (linter : Linter) (disk : Disk) (args : List String) (tally : Tally),
      let ideal := ((linter.parsing lenient).run disk args).runOn { tally }
      let actual := ((linter.parsing parse).run disk args).runOn { tally }
      ((∀ call ∈ ideal.2.calls, Judges parse call.files) →
        actual.1 = ideal.1 ∧ actual.2.calls.map (·.files) = ideal.2.calls.map (·.files)) ∧
      ∀ message, actual.1 = .error (.crash message) ↔
        ∃ before files after, ideal.2.calls.map (·.files) = before ++ files :: after ∧
          (∀ earlier ∈ before, Judges parse earlier) ∧ FailsOn parse files message := by
  refine ⟨fun found => verdict_eq_findings_iff, ?_, fun message => verdict_eq_crashed_iff, ?_⟩
  · intro hjudges hfaulty
    obtain ⟨hall, -⟩ | ⟨-, hrefused⟩ := verdict_of_judges hjudges
    · exact absurd hall hfaulty
    · exact hrefused
  · intro linter disk args tally
    -- With the lenient parser the run is what the script says, so the script is the measure.
    have hlenient : ∀ files ∈ (linter.script disk args).given, Judges lenient files :=
      fun files _ => judges_lenient files
    obtain ⟨hideal, hgiven⟩ := run_parsing_of_judges tally hlenient
    dsimp only
    rw [hgiven, hideal]
    refine ⟨fun hjudges => run_parsing_of_judges tally ?_,
      run_parsing_eq_crash_iff linter disk args tally⟩
    rw [← hgiven, List.forall_mem_map]
    exact hjudges

/-- A parser that finds fault with some files and fails on one that is nested too deep. -/
def choosy : SourceParser := fun path _ =>
  if path = "deep.py" then .failed "maximum recursion depth exceeded during ast construction"
  else if path = "bad.py" then .broken (some 1) none (some "invalid syntax")
  else if path = "nul.py" then .unusable "source code string cannot contain null bytes"
  else .parses

/-- What the engine has to say of two files that do not parse, beside one that does. -/
theorem answers_choosy :
    Judges choosy [("bad.py", .empty), ("good.py", .empty), ("nul.py", .empty)] ∧
    IsRefusal choosy [("bad.py", .empty), ("good.py", .empty), ("nul.py", .empty)]
      "bad.py:1:0: invalid syntax; nul.py: source code string cannot contain null bytes" := by
  have hjudges :
      Judges choosy [("bad.py", .empty), ("good.py", .empty), ("nul.py", .empty)] := by
    simp [Judges, choosy]
  have hfaulty : ¬∀ file ∈ [("bad.py", ByteArray.empty), ("good.py", .empty), ("nul.py", .empty)],
      choosy file.1 file.2 = .parses := by
    simp [choosy]
  obtain ⟨message, hrefused, hrefusal⟩ :=
    (inspect_answers choosy 0 _ .everything).2.1 hjudges hfaulty
  have hmessage : (engine choosy).inspect 0
      [("bad.py", .empty), ("good.py", .empty), ("nul.py", .empty)] .everything =
      .refused "bad.py:1:0: invalid syntax; nul.py: source code string cannot contain null bytes" :=
    rfl
  rw [hmessage] at hrefused
  obtain rfl := Verdict.refused.inj hrefused
  exact ⟨hjudges, hrefusal⟩

/-- A file on which the parser fails ends the unit without an answer: the file that comes after it
does not parse, and nothing is said of it. -/
theorem inspect_unanswered :
    choosy "bad.py" .empty = .broken (some 1) none (some "invalid syntax") ∧
    (engine choosy).inspect 0 [("good.py", .empty), ("deep.py", .empty), ("bad.py", .empty)]
      .everything = .crashed "maximum recursion depth exceeded during ast construction" :=
  ⟨rfl, rfl⟩

end SyntaxEngine

end LintFront
