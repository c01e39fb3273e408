import LintFront.Number.Double
import LintFront.Text.Character
/-!
# Reading numerals

Settings may spell a number as text. The digits are the ten ASCII ones, and what else may stand in a
numeral depends on what it spells.

A *whole number* comes down to a plain numeral, digits with or without a minus sign. Blanks around
it, a plus sign, zeros in front, a fraction that is all zeros and underscores in between are put
aside first. A *real number* has the usual form with a fraction and an exponent, or is one of the
names of the special values; it may have blanks around it or underscores inside, but not both.

Underscores are put aside wherever they stand, as long as none stands at either end and no two stand
together.

## Main statements

`plain?_isSome_iff`: which texts are plain numerals. `ungroup_of_plain`: a text without underscores
is left as it is.
-/

namespace LintFront.Reading

/-- Is `c` an ASCII digit? -/
def isDigit (c : Char) : Bool := '0' ≤ c && c ≤ '9'

/-- Do two underscores stand together? -/
def hasPair : List Char → Bool
  | '_' :: '_' :: _ => true
  | _ :: rest => hasPair rest
  | [] => false

/-- A text without its underscores. None may stand at either end, and no two together. -/
def ungroup (s : List Char) : Option (List Char) :=
  if s.head? = some '_' || s.getLast? = some '_' || hasPair s then none
  else some (s.filter (· ≠ '_'))

theorem hasPair_of_plain {s : List Char} (h : '_' ∉ s) : hasPair s = false := by
  induction s with
  | nil => rfl
  | cons c rest ih =>
    have hc : c ≠ '_' := fun e => h (by simp [e])
    have hrest : hasPair rest = false := ih fun hm => h (by simp [hm])
    unfold hasPair
    split <;> simp_all

/-- A text without underscores is left as it is. -/
theorem ungroup_of_plain {s : List Char} (h : '_' ∉ s) : ungroup s = some s := by
  have hhead : s.head? ≠ some '_' := fun e => h (List.mem_of_head? e)
  have hlast : s.getLast? ≠ some '_' := fun e => h (List.mem_of_getLast? e)
  have hkept : ∀ c ∈ s, ¬c = '_' := fun c hc e => h (e ▸ hc)
  simpa [ungroup, hhead, hlast, hasPair_of_plain h] using hkept

/-- The natural number that a sequence of digits spells. -/
def natOfDigits (digits : List Char) : Nat :=
  digits.foldl (fun n c => 10 * n + (c.toNat - 48)) 0

/-- The sign at the start of a numeral (is it negative?) and what follows it. -/
def splitSign : List Char → Bool × List Char
  | '-' :: rest => (true, rest)
  | '+' :: rest => (false, rest)
  | s => (false, s)

/-- The text before the first character that satisfies `p`, and the text after it if there is
one. -/
def splitFirst (p : Char → Bool) : List Char → List Char × Option (List Char)
  | [] => ([], none)
  | c :: rest =>
    if p c then ([], some rest)
    else ((c :: (splitFirst p rest).1), (splitFirst p rest).2)

/-! ## 1. Whole numbers -/

/-- Why a text spells no whole number. -/
inductive WholeFault where
  | unreadable
  /-- It starts with more digits than are looked at. -/
  | tooLong
  deriving DecidableEq, Repr

/-- The greatest number of digits of a whole number. -/
def maxDigits : Nat := 4300

/-- Digits of a plain numeral: a zero comes first only when it stands alone. -/
def isPlainRun (digits : List Char) : Bool :=
  digits.all isDigit && !digits.isEmpty && (digits.head? ≠ some '0' || digits.length = 1) &&
    digits.length ≤ maxDigits

/-- A minus sign at the start of a text, if there is one, and what follows it. -/
def splitMinus : List Char → Bool × List Char
  | '-' :: rest => (true, rest)
  | s => (false, s)

/-- The number that a plain numeral spells. -/
def plain? (s : List Char) : Option Int :=
  let (negative, digits) := splitMinus s
  if isPlainRun digits then
    let n : Int := natOfDigits digits
    some (if negative then -n else n)
  else none

/-- A text is a plain numeral exactly when a plain run of digits is left of it without a minus sign
in front. -/
theorem plain?_isSome_iff {s : List Char} :
    (plain? s).isSome = isPlainRun (splitMinus s).2 := by
  unfold plain?
  cases h : isPlainRun (splitMinus s).2 <;> simp [h]

/-- Does a text start with a plain numeral of too many digits? What follows them is not looked
at. -/
def isTooLong (s : List Char) : Bool :=
  let digits := (splitMinus s).2.takeWhile isDigit
  digits.head? ≠ some '0' && maxDigits < digits.length

/-- What follows zeros, and underscores among them; `last` is the one before `s`. The last of them
is kept when nothing else is left or a point follows. A minus sign may follow them. -/
def afterZeros (last : Char) : (s : List Char) → Option (List Char)
  | [] => some [last]
  | c :: rest =>
    if c = '0' || c = '_' then afterZeros c rest
    else if c = '.' then some (last :: c :: rest)
    else if isDigit c || c = '-' then some (c :: rest)
    else none

/-- A numeral without sign, and without the zeros in front. It starts with a digit. -/
def dropZeros : List Char → Option (List Char)
  | [] => none
  | c :: rest =>
    if c = '0' then afterZeros c rest
    else if isDigit c then some (c :: rest)
    else none

/-- A numeral without its fraction, if that consists of zeros; there is at least one. -/
def dropFraction (s : List Char) : List Char :=
  match splitFirst (· = '.') s with
  | (whole, some fraction) =>
    if !fraction.isEmpty && fraction.all (· = '0') then whole else s
  | (_, none) => s

/-- The plain numeral that a text comes down to. -/
def bare? (s : List Char) : Option (List Char) :=
  let trimmed := Text.trim s
  let sign := if (splitMinus trimmed).1 then ['-'] else []
  do
    let unsigned ← dropZeros (splitSign trimmed).2
    let digits ← ungroup (dropFraction unsigned)
    return sign ++ digits

/-- The whole number that a text spells. -/
def whole (s : List Char) : Except WholeFault Int :=
  if isTooLong s then .error .tooLong
  else
    match (bare? s).bind plain? with
    | some i => .ok i
    | none => .error .unreadable

/-! ## 2. Real numbers -/

/-- A run of digits, which may be empty. -/
def digits? (s : List Char) : Option (List Char) := if s.all isDigit then some s else none

/-- The exponent that follows the letter `e`. -/
def exponent? (s : List Char) : Option Int := do
  let (negative, unsigned) := splitSign s
  let digits ← digits? unsigned
  guard !digits.isEmpty
  let n : Int := natOfDigits digits
  return if negative then -n else n

/-- The finite number that an unsigned text spells. -/
def unsignedReal? (negative : Bool) (s : List Char) : Option Double := do
  let (mantissa, exponentText) := splitFirst (fun c => c = 'e' || c = 'E') s
  let (wholeText, fractionText) := splitFirst (· = '.') mantissa
  let whole ← digits? wholeText
  let fraction ← digits? (fractionText.getD [])
  guard !(whole ++ fraction).isEmpty
  let exponent ← match exponentText with
    | none => some 0
    | some text => exponent? text
  return .ofDecimal negative (natOfDigits (whole ++ fraction)) (exponent - fraction.length)

/-- The number that a text without blanks and underscores spells, the names of the special values in
any case. -/
def plainReal? (s : List Char) : Option Double :=
  let (negative, unsigned) := splitSign s
  match String.ofList (unsigned.map Char.toLower) with
  | "inf" | "infinity" => some (.infinity negative)
  | "nan" => some .nan
  | _ => unsignedReal? negative unsigned

/-- The number that a text spells: with blanks around it, or else with underscores inside. -/
def real? (s : List Char) : Option Double :=
  (plainReal? (Text.trim s)).or ((ungroup s).bind plainReal?)

end LintFront.Reading
