import LintFront.Package.Unit
import LintFront.Proofs.Package.Specifier
import Mathlib.Data.List.Basic
/-!
# The grammar of specifiers

A specifier may be spelled in many ways: a dot or a slash stands between two identifiers, and
slashes around the whole do not count. Here the spellings are given by a grammar, which puts them
together from left to right, and not by the cuts that take them apart. Whether a text is a spelling,
and of which identifiers, is the same question for both.

All spellings of one specifier have one normal form, the identifiers with dots between them. Nothing
else of a spelling is ever looked at once it has been taken apart, so spellings with the same normal
form may stand for each other wherever a package is looked up.

## Main statements

`Specifier.parse_eq_ok_iff`: the texts that spell a specifier are those of the grammar.
`Specifier.spellings_interchange`: the normal form, and what it decides.
-/

namespace LintFront.Specifier

/-! ## 1. The grammar -/

/-- Identifiers, each but the last followed by one separator. -/
inductive Sequence : (text : List Char) → (names : List String) → Prop where
  | last {name : String} (identifier : Text.isIdentifier name = true) :
      Sequence name.toList [name]
  | next {name : String} {separator : Char} {text : List Char} {names : List String}
      (identifier : Text.isIdentifier name = true) (h : separator = '.' ∨ separator = '/')
      (rest : Sequence text names) : Sequence (name.toList ++ separator :: text) (name :: names)

/-- A text spells the specifier of `names`: they stand in it in sequence, with any number of slashes
before and after them. -/
def IsSpelling (text : String) (names : List String) : Prop :=
  ∃ before after sequence, Sequence sequence names ∧
    text.toList = List.replicate before '/' ++ sequence ++ List.replicate after '/'

theorem isSeparator_iff {c : Char} : isSeparator c = true ↔ c = '.' ∨ c = '/' := by
  rw [isSeparator, Bool.or_eq_true, decide_eq_true_eq, decide_eq_true_eq]

namespace Sequence

variable {text : List Char} {names : List String}

theorem identifiers (h : Sequence text names) : ∀ s ∈ names, Text.isIdentifier s = true := by
  induction h with
  | last identifier => exact List.forall_mem_singleton.2 identifier
  | next identifier _ _ ih => exact List.forall_mem_cons.2 ⟨identifier, ih⟩

/-- A sequence comes apart at its separators. -/
theorem splitOnP_eq (h : Sequence text names) :
    (text.splitOnP isSeparator).map String.ofList = names := by
  induction h with
  | last identifier =>
    rw [List.splitOnP_eq_singleton (Text.isSeparator_of_isIdentifier identifier),
      List.map_singleton, String.ofList_toList]
  | next identifier hseparator _ ih =>
    rw [List.splitOnP_append_cons_of_forall_mem (Text.isSeparator_of_isIdentifier identifier) _
      (isSeparator_iff.2 hseparator), List.map_cons, ih, String.ofList_toList]

/-- A text of which all pieces between separators are identifiers is the sequence of these. The
induction is on the length of the text: behind its first separator it is shorter. -/
theorem of_splitOnP (n : Nat) {text : List Char} (hlength : text.length ≤ n)
    (h : ∀ s ∈ (text.splitOnP isSeparator).map String.ofList, Text.isIdentifier s = true) :
    Sequence text ((text.splitOnP isSeparator).map String.ofList) := by
  induction n generalizing text with
  | zero =>
    -- The only piece of the empty text is empty, which is no identifier.
    obtain rfl := List.length_eq_zero_iff.1 (Nat.le_zero.1 hlength)
    exact absurd (h "" (by simp)) (by decide)
  | succ n ih =>
    have hcut := List.takeWhile_append_dropWhile (p := fun c => !isSeparator c) (l := text)
    have hfree : ∀ c ∈ text.takeWhile fun c => !isSeparator c, isSeparator c = false := by
      intro c hc
      simpa using List.mem_takeWhile_imp hc
    cases hrest : text.dropWhile fun c => !isSeparator c with
    | nil =>
      rw [hrest, List.append_nil] at hcut
      rw [hcut] at hfree
      rw [List.splitOnP_eq_singleton hfree, List.map_singleton] at h ⊢
      have hlast := Sequence.last (h _ List.mem_cons_self)
      rwa [String.toList_ofList] at hlast
    | cons separator rest =>
      have hseparator : isSeparator separator = true := by
        have hhead :=
          List.head_dropWhile_not (fun c => !isSeparator c) (l := text) (by simp [hrest])
        simpa [hrest] using hhead
      rw [hrest] at hcut
      rw [← hcut] at h hlength ⊢
      rw [List.splitOnP_append_cons_of_forall_mem hfree _ hseparator, List.map_cons] at h ⊢
      have hshorter : rest.length ≤ n := by
        rw [List.length_append, List.length_cons] at hlength
        omega
      have hnext := Sequence.next (h _ List.mem_cons_self) (isSeparator_iff.1 hseparator)
        (ih hshorter fun s hs => h s (List.mem_cons_of_mem _ hs))
      rwa [String.toList_ofList] at hnext

/-- A sequence begins and ends with a character of an identifier. -/
theorem ends_ne_slash (h : Sequence text names) :
    text ≠ [] ∧ text.head? ≠ some '/' ∧ text.getLast? ≠ some '/' := by
  have hname : ∀ {name : String}, Text.isIdentifier name = true →
      name.toList ≠ [] ∧ '/' ∉ name.toList := by
    intro name identifier
    constructor
    · intro hnil
      rw [Text.isIdentifier, hnil] at identifier
      cases identifier
    · intro hmem
      exact absurd (Text.isSeparator_of_isIdentifier identifier _ hmem) (by decide)
  induction h with
  | last identifier =>
    obtain ⟨hne, hslash⟩ := hname identifier
    exact ⟨hne, fun hhead => hslash (List.mem_of_mem_head? hhead),
      fun hlast => hslash (List.mem_of_mem_getLast? hlast)⟩
  | next identifier _ rest ih =>
    obtain ⟨hne, hslash⟩ := hname identifier
    refine ⟨by simp, ?_, ?_⟩
    · rw [List.head?_append_of_ne_nil _ hne]
      exact fun hhead => hslash (List.mem_of_mem_head? hhead)
    · rw [List.getLast?_append_of_ne_nil _ (List.cons_ne_nil _ _),
        List.getLast?_cons_of_ne_nil ih.1]
      exact ih.2.2

end Sequence

/-! ## 2. Slashes around a sequence -/

theorem dropWhile_slashes (n : Nat) {l : List Char} (h : l.head? ≠ some '/') :
    (List.replicate n '/' ++ l).dropWhile (· = '/') = l := by
  induction n with
  | zero =>
    cases l with
    | nil => rfl
    | cons c l => exact List.dropWhile_cons_of_neg (by simpa using h)
  | succ n ih => rwa [List.replicate_succ, List.cons_append, List.dropWhile_cons_of_pos (by simp)]

theorem exists_slashes_dropWhile (l : List Char) :
    ∃ n, l = List.replicate n '/' ++ l.dropWhile (· = '/') := by
  refine ⟨(l.takeWhile (· = '/')).length, ?_⟩
  have hslashes : ∀ c ∈ l.takeWhile (· = '/'), c = '/' := by
    intro c hc
    simpa using List.mem_takeWhile_imp hc
  rw [← List.eq_replicate_of_mem hslashes, List.takeWhile_append_dropWhile]

/-- Of a text with slashes around it the rest is left. -/
theorem stripSlashes_around (before after : Nat) {l : List Char} (hne : l ≠ [])
    (hhead : l.head? ≠ some '/') (hlast : l.getLast? ≠ some '/') :
    stripSlashes (List.replicate before '/' ++ l ++ List.replicate after '/') = l := by
  have hfront : (l ++ List.replicate after '/').head? ≠ some '/' := by
    rwa [List.head?_append_of_ne_nil _ hne]
  rw [stripSlashes, List.append_assoc, dropWhile_slashes before hfront, Path.dropEndSlashes,
    List.reverse_append, List.reverse_replicate, dropWhile_slashes after, List.reverse_reverse]
  rwa [List.head?_reverse]

theorem exists_around_stripSlashes (l : List Char) : ∃ before after,
    l = List.replicate before '/' ++ stripSlashes l ++ List.replicate after '/' := by
  obtain ⟨before, hbefore⟩ := exists_slashes_dropWhile l
  obtain ⟨after, hafter⟩ := exists_slashes_dropWhile (l.dropWhile (· = '/')).reverse
  refine ⟨before, after, ?_⟩
  have hback := congrArg List.reverse hafter
  rw [List.reverse_reverse, List.reverse_append, List.reverse_replicate] at hback
  rw [stripSlashes, Path.dropEndSlashes, List.append_assoc, ← hback]
  exact hbefore

/-! ## 3. Texts that spell a specifier -/

variable {text : String} {names : List String}

/-- The texts that spell a specifier are those of the grammar. -/
theorem parse?_eq_some_iff_isSpelling : parse? text = some ⟨names⟩ ↔ IsSpelling text names := by
  rw [parse?_eq_some_iff]
  constructor
  · rintro ⟨hnames, hidentifiers⟩
    obtain ⟨before, after, hslashes⟩ := exists_around_stripSlashes text.toList
    refine ⟨before, after, _, ?_, hslashes⟩
    obtain rfl : names = pieces text := hnames
    exact Sequence.of_splitOnP _ le_rfl hidentifiers
  · rintro ⟨before, after, sequence, hsequence, htext⟩
    obtain ⟨hne, hhead, hlast⟩ := hsequence.ends_ne_slash
    have hpieces : pieces text = names := by
      rw [pieces, htext, stripSlashes_around before after hne hhead hlast, hsequence.splitOnP_eq]
    rw [hpieces]
    exact ⟨rfl, hsequence.identifiers⟩

theorem parse_eq_ok_iff : parse text = .ok ⟨names⟩ ↔ IsSpelling text names := by
  rw [← parse?_eq_some_iff_isSpelling, parse]
  cases parse? text with
  | none => simp
  | some spec => simp

theorem parse_of_not_isSpelling (h : ¬∃ names, IsSpelling text names) :
    parse text = .error (.noUnit (.badSpecifier text)) := by
  have hnone : parse? text = none := by
    rw [Option.eq_none_iff_forall_ne_some]
    rintro ⟨names⟩ hsome
    exact h ⟨names, parse?_eq_some_iff_isSpelling.1 hsome⟩
  rw [parse, hnone]

/-! ## 4. The normal form -/

theorem normalForm_eq_ok_iff {form : String} :
    normalForm text = .ok form ↔ ∃ names, IsSpelling text names ∧ form = ".".intercalate names := by
  simp only [← parse_eq_ok_iff, normalForm]
  cases parse text with
  | error trouble => simp [Except.map]
  | ok spec =>
    simp only [Except.map, Except.ok.injEq]
    constructor
    · rintro rfl
      exact ⟨spec.segments, rfl, rfl⟩
    · rintro ⟨names, rfl, rfl⟩
      rfl

theorem IsSpelling.wellSpelled (h : IsSpelling text names) : WellSpelled ⟨names⟩ :=
  wellSpelled_of_parse? (parse?_eq_some_iff_isSpelling.2 h)

theorem normalForm_of_isSpelling (h : IsSpelling text names) :
    normalForm text = .ok (".".intercalate names) :=
  normalForm_eq_ok_iff.2 ⟨names, h, rfl⟩

/-- The normal form spells the same identifiers. -/
theorem IsSpelling.normal (h : IsSpelling text names) :
    IsSpelling (".".intercalate names) names :=
  parse?_eq_some_iff_isSpelling.1 (parse?_dotted h.wellSpelled)

/-- Different identifiers have different normal forms. -/
theorem names_eq_of_normalForm_eq {other : String} {names' : List String}
    (h : IsSpelling text names) (h' : IsSpelling other names')
    (hform : normalForm text = normalForm other) : names = names' := by
  rw [normalForm_of_isSpelling h, normalForm_of_isSpelling h'] at hform
  have hparse := parse?_dotted h.wellSpelled
  rw [dotted, Except.ok.inj hform] at hparse
  have hsame := hparse.symm.trans (parse?_dotted h'.wellSpelled)
  exact congrArg segments (Option.some.inj hsame)

/-- Texts with the same normal form spell the same specifier. -/
theorem parse_eq_of_normalForm_eq {other form : String} (h : normalForm text = .ok form)
    (h' : normalForm other = .ok form) : parse text = parse other := by
  obtain ⟨names, hspelling, -⟩ := normalForm_eq_ok_iff.1 h
  obtain ⟨names', hspelling', -⟩ := normalForm_eq_ok_iff.1 h'
  obtain rfl := names_eq_of_normalForm_eq hspelling hspelling' (h.trans h'.symm)
  rw [parse_eq_ok_iff.2 hspelling, parse_eq_ok_iff.2 hspelling']

/-! ## 5. What is looked up -/

theorem unit_congr {other : String} (h : parse text = parse other) (disk : Disk)
    (search : List String) (base : String) :
    Package.unit disk search text base = Package.unit disk search other base := by
  rw [Package.unit, Package.unit, h]

theorem directory_congr {other : String} (h : parse text = parse other) (disk : Disk)
    (search : List String) (base : String) :
    Package.directory disk search text base = Package.directory disk search other base := by
  rw [Package.directory, Package.directory, h]

/-- With the marker after it a text is expanded as what it spells. -/
theorem expand_congr {other : String} (h : parse text = parse other) (disk : Disk)
    (search excludes : List String) (base : String) :
    Package.expand disk search excludes (text ++ recursiveMarker) base =
      Package.expand disk search excludes (other ++ recursiveMarker) base := by
  have hmarker : ∀ stem : String, hasMarker (stem ++ recursiveMarker) = true :=
    fun stem => Text.hasEnding_append stem recursiveMarker
  have hstem : ∀ stem : String, stripMarker (stem ++ recursiveMarker) = stem := by
    intro stem
    rw [stripMarker, if_pos (hmarker stem), Text.dropLast_append]
  rw [Package.expand, Package.expand, if_pos (hmarker text), if_pos (hmarker other), hstem, hstem,
    h]

/-- A text has a normal form exactly when the grammar has it, and then it is the identifiers with
dots between them. The normal form is its own, tells apart what is not the same specifier, and
decides all that is looked up. -/
theorem spellings_interchange (text other : String) :
    (∀ form, normalForm text = .ok form ↔
      ∃ names, IsSpelling text names ∧ form = ".".intercalate names) ∧
    ((¬∃ names, IsSpelling text names) →
      normalForm text = .error (.noUnit (.badSpecifier text))) ∧
    (∀ form, normalForm text = .ok form → normalForm form = .ok form) ∧
    (∀ names names', IsSpelling text names → IsSpelling other names' → names ≠ names' →
      normalForm text ≠ normalForm other) ∧
    (∀ form, normalForm text = .ok form → normalForm other = .ok form →
      ∀ (disk : Disk) (search excludes : List String) (base : String),
        Package.unit disk search text base = Package.unit disk search other base ∧
        Package.directory disk search text base = Package.directory disk search other base ∧
        Package.expand disk search excludes (text ++ recursiveMarker) base =
          Package.expand disk search excludes (other ++ recursiveMarker) base) := by
  refine ⟨fun form => normalForm_eq_ok_iff, ?refused, ?normal, ?distinct, ?interchange⟩
  case refused =>
    intro hnone
    rw [normalForm, parse_of_not_isSpelling hnone]
    rfl
  case normal =>
    intro form hform
    obtain ⟨names, hspelling, rfl⟩ := normalForm_eq_ok_iff.1 hform
    exact normalForm_of_isSpelling hspelling.normal
  case distinct =>
    intro names names' hspelling hspelling' hne hform
    exact hne (names_eq_of_normalForm_eq hspelling hspelling' hform)
  case interchange =>
    intro form hform hform' disk search excludes base
    have hparse := parse_eq_of_normalForm_eq hform hform'
    exact ⟨unit_congr hparse disk search base, directory_congr hparse disk search base,
      expand_congr hparse disk search excludes base⟩

/-- A package in a package. -/
def nested : Disk where
  root := .directory [("pkg", .directory [("__init__.py", .file .empty),
    ("sub", .directory [("__init__.py", .file .empty)])])]
  here := []

/-- Two spellings of the inner package, of which one mixes dots with slashes. -/
theorem spellings_nested :
    (normalForm "/pkg.sub//" = .ok "pkg.sub" ∧ normalForm "pkg/sub" = .ok "pkg.sub") ∧
    Package.unit nested [] "/pkg.sub//" "." = Package.unit nested [] "pkg/sub" "." ∧
    normalForm "pkg.sub" = .ok "pkg.sub" := by
  have hfirst : normalForm "/pkg.sub//" = .ok "pkg.sub" := by decide
  have hsecond : normalForm "pkg/sub" = .ok "pkg.sub" := by decide
  obtain ⟨-, -, hnormal, -, hsame⟩ := spellings_interchange "/pkg.sub//" "pkg/sub"
  exact ⟨⟨hfirst, hsecond⟩, (hsame _ hfirst hsecond nested [] [] ".").1, hnormal _ hfirst⟩

end LintFront.Specifier
