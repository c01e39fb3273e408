import LintFront.Number.Double
/-!
# The shortest decimal that reads back

A positive double is written with the fewest significant decimal digits that read back as the same
double; among the decimals of that length the nearest one is taken, and of two equally near ones the
one with the even last digit. The numbers that read back as a double form an interval around it, so
the search goes through the decimal grids from coarse to fine and looks at the two neighbours of the
double on each: when a point of a grid lies in the interval, so does one of the two neighbours.

Everything is exact arithmetic on natural numbers, in units of a quarter of a grain.
-/

namespace LintFront.Shortest

/-- A decimal number `digits * 10 ^ exponent`. -/
structure Decimal where
  digits : Nat
  exponent : Int
  deriving DecidableEq, Repr

/-- The numbers that read back as one double: from `low` to `high` quarter grains, the ends included
when the double has an even significand. -/
structure Interval where
  low : Nat
  high : Nat
  closed : Bool

/-- The interval of a positive number of grains. Below a power of two doubles lie twice as dense as
above it, unless they lie as dense as can be. -/
def interval (grains : Nat) : Interval :=
  let s := Double.step grains
  let below := if grains = Nat.pow 2 grains.log2 ∧ 1 < s then s else 2 * s
  ⟨4 * grains - below, 4 * grains + 2 * s, (grains / s) % 2 = 0⟩

/-- How many quarter grains make one. -/
def quartersPerOne : Nat := 4 * Double.grainsPerOne

/-- The fraction that `d` is, in quarter grains. -/
def Decimal.quarters (d : Decimal) : Nat × Nat :=
  if 0 ≤ d.exponent then (d.digits * Nat.pow 10 d.exponent.toNat * quartersPerOne, 1)
  else (d.digits * quartersPerOne, Nat.pow 10 (-d.exponent).toNat)

/-- Does `d` lie in the interval? -/
def Interval.contains (i : Interval) (d : Decimal) : Bool :=
  let (num, den) := d.quarters
  if i.closed then i.low * den ≤ num && num ≤ i.high * den
  else i.low * den < num && num < i.high * den

/-- The neighbour at or below `num / den` on the grid of multiples of `10 ^ exponent`. -/
def floorOn (num den : Nat) (exponent : Int) : Nat :=
  if 0 ≤ exponent then num / (den * Nat.pow 10 exponent.toNat)
  else num * Nat.pow 10 (-exponent).toNat / den

/-- The neighbour of a number of grains on one grid that reads back, and of two the nearer. -/
def candidate? (grains : Nat) (exponent : Int) : Option Decimal :=
  let i := interval grains
  let below : Decimal := ⟨floorOn grains Double.grainsPerOne exponent, exponent⟩
  let above : Decimal := ⟨below.digits + 1, exponent⟩
  match i.contains below, i.contains above with
  | false, false => none
  | true, false => some below
  | false, true => some above
  | true, true =>
    let (numBelow, den) := below.quarters
    let (numAbove, _) := above.quarters
    let gapBelow := 4 * grains * den - numBelow
    let gapAbove := numAbove - 4 * grains * den
    if gapBelow < gapAbove then some below
    else if gapAbove < gapBelow then some above
    else if below.digits % 2 = 0 then some below
    else some above

/-- The exponent of the leading decimal digit of `num / den`. -/
def leadingExponent (num den : Nat) : Int :=
  if den ≤ num then (Nat.toDigits 10 (num / den)).length - 1
  else
    let k := (Nat.toDigits 10 (den / num)).length - 1
    if den ≤ num * Nat.pow 10 k then -k else -(k + 1 : Nat)

/-- The first hit among the grids that start with `precision` digits and get finer, `tries` of them;
the exact value ends the search when no grid was tried. -/
def search (grains : Nat) (leading : Int) : (tries precision : Nat) → Decimal
  | 0, _ => ⟨grains * Nat.pow 5 1074, -1074⟩
  | tries + 1, precision =>
    match candidate? grains (leading - precision + 1) with
    | some d => d
    | none => search grains leading tries (precision + 1)

/-- `d` without the zeros at the end of its digits. -/
def stripZeros : (fuel : Nat) → Decimal → Decimal
  | 0, d => d
  | fuel + 1, d =>
    if d.digits ≠ 0 ∧ d.digits % 10 = 0 then stripZeros fuel ⟨d.digits / 10, d.exponent + 1⟩ else d

/-- The shortest decimal of a positive number of grains. Seventeen digits always suffice. -/
def ofGrains (grains : Nat) : Decimal :=
  stripZeros 20 (search grains (leadingExponent grains Double.grainsPerOne) 17 1)

/-- How a shortest decimal is laid out. -/
structure Layout where
  /-- The least exponent of the leading digit that is written without an exponent. -/
  positionalFrom : Int
  /-- The first exponent of the leading digit that is written with an exponent again. -/
  positionalBelow : Int
  /-- The least number of digits of a written exponent. -/
  exponentWidth : Nat

/-- `n` in decimal digits, filled up with zeros on the left to at least `width`. -/
def padded (width n : Nat) : List Char :=
  let digits := Nat.toDigits 10 n
  List.replicate (width - digits.length) '0' ++ digits

/-- The text of `d` in a layout. Without an exponent there is always a digit after the point. -/
def Layout.render (layout : Layout) (d : Decimal) : List Char :=
  let digits := Nat.toDigits 10 d.digits
  let leading : Int := d.exponent + digits.length - 1
  if layout.positionalFrom ≤ leading ∧ leading < layout.positionalBelow then
    if leading < 0 then
      '0' :: '.' :: (List.replicate (-leading - 1).toNat '0' ++ digits)
    else
      let whole := leading.toNat + 1
      let filled := digits ++ List.replicate (whole - digits.length) '0'
      let fraction := filled.drop whole
      filled.take whole ++ '.' :: (if fraction.isEmpty then ['0'] else fraction)
  else
    let mantissa := match digits with
      | [] => []
      | [c] => [c]
      | c :: rest => c :: '.' :: rest
    mantissa ++ 'e' :: (if leading < 0 then '-' else '+')
      :: padded layout.exponentWidth leading.natAbs

/-- Confidences from a ten-thousandth up to `10 ^ 16` are written without an exponent; an exponent
has a sign and at least two digits. -/
def plain : Layout := ⟨-4, 16, 2⟩

end LintFront.Shortest

namespace LintFront

/-- The text of a double: its shortest decimal. -/
def Double.text : Double → String
  | nan => "nan"
  | infinity true => "-inf"
  | infinity false => "inf"
  | finite negative grains =>
    let digits := if grains = 0 then ['0', '.', '0'] else
      Shortest.plain.render (Shortest.ofGrains grains)
    String.ofList (if negative then '-' :: digits else digits)

/-- The text of a bound. -/
def Number.text : Number → String
  | integer i => toString i
  | real x => x.text

end LintFront
