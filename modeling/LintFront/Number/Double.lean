/-!
# Double-precision numbers

A confidence is a double-precision number, and all that is done with one is to compare it, to read
it from text and to write it. For this no floating-point unit is needed. Every finite double is a
whole multiple of the least positive one, `2 ^ -1074`; a finite double is therefore kept as a sign
and a natural number of such *grains*. Comparison becomes comparison of integers, rounding becomes
division of natural numbers, and both can be reasoned about.

## Main statements

`Double.le_trans`: the comparison is transitive. `Double.le_refl_iff`: it fails to be reflexive for
the undefined value only.
-/

namespace LintFront

/-- A double-precision number. Zero has two signs, which compare as equal. -/
inductive Double where
  /-- The undefined value, which compares with nothing. -/
  | nan
  | infinity (negative : Bool)
  /-- The number `± grains * 2 ^ -1074`. -/
  | finite (negative : Bool) (grains : Nat)
  deriving DecidableEq, Repr

namespace Double

/-! ## 1. Size and precision -/

/-- How many grains make one. -/
def grainsPerOne : Nat := Nat.pow 2 1074

/-- The least number of grains that no finite double reaches: `2 ^ 1024` in all. -/
def overflowGrains : Nat := Nat.pow 2 2098

/-- How many grains apart doubles of about `grains` grains lie: fifty-three binary digits are kept,
and the grain is the finest step. -/
def step (grains : Nat) : Nat := Nat.pow 2 (grains.log2 - 52)

/-- The quotient of `num` by `den`, rounded to the nearest whole number; a half goes to the even
neighbour. -/
def divideRounding (num den : Nat) : Nat :=
  let q := num / den
  let r := num % den
  if 2 * r < den then q
  else if 2 * r = den then q + q % 2
  else q + 1

/-- The double nearest to `± num / den`. -/
def ofRatio (negative : Bool) (num den : Nat) : Double :=
  let scaled := num * grainsPerOne
  let s := step (scaled / den)
  let grains := divideRounding scaled (den * s) * s
  if overflowGrains ≤ grains then infinity negative else finite negative grains

/-- The double nearest to `± digits * 10 ^ exponent`. Numbers far out of range are settled by their
decimal length alone, so that no huge power is formed. -/
def ofDecimal (negative : Bool) (digits : Nat) (exponent : Int) : Double :=
  if digits = 0 then finite negative 0
  else
    let length : Int := (Nat.toDigits 10 digits).length
    if 320 < length + exponent then infinity negative
    else if length + exponent < -340 then finite negative 0
    else if 0 ≤ exponent then ofRatio negative (digits * Nat.pow 10 exponent.toNat) 1
    else ofRatio negative digits (Nat.pow 10 (-exponent).toNat)

def zero : Double := finite false 0

def one : Double := finite false grainsPerOne

/-- The double nearest to an integer. -/
def ofInt (i : Int) : Double := ofRatio (i < 0) i.natAbs 1

def isFinite : Double → Bool
  | finite .. => true
  | _ => false

/-- The integer that a double is, when it is one. -/
def toInt? : Double → Option Int
  | finite negative grains =>
    if grains % grainsPerOne = 0 then
      let n : Int := grains / grainsPerOne
      some (if negative then -n else n)
    else none
  | _ => none

/-! ## 2. Order -/

/-- The signed number of grains of a finite double. -/
def signedGrains (negative : Bool) (grains : Nat) : Int :=
  if negative then -grains else grains

/-- Is `x` at most `y`? -/
def le : Double → Double → Bool
  | nan, _ => false
  | _, nan => false
  | infinity true, _ => true
  | _, infinity false => true
  | infinity false, _ => false
  | _, infinity true => false
  | finite s m, finite t n => signedGrains s m ≤ signedGrains t n

/-- Does a number compare as less than another one? The undefined value never does. -/
def IsBelow (x y : Double) : Prop := x.le y = true ∧ y.le x = false

instance (x y : Double) : Decidable (x.IsBelow y) := inferInstanceAs (Decidable (_ ∧ _))

theorem le_refl_iff {x : Double} : x.le x = true ↔ x ≠ nan := by
  cases x with
  | nan => simp [le]
  | infinity s => cases s <;> simp [le]
  | finite s m => simp [le]

/-- A number that is at least something is not the undefined value. -/
theorem ne_nan_of_le {x y : Double} (h : x.le y = true) : y ≠ nan := by
  rintro rfl
  rcases x with _ | (_ | _) | _ <;> cases h

theorem le_trans {x y z : Double} (hxy : x.le y = true) (hyz : y.le z = true) :
    x.le z = true := by
  have hz := ne_nan_of_le hyz
  cases x with
  | nan => simp [le] at hxy
  | infinity negative =>
    cases negative with
    | true => rcases z with _ | (_ | _) | _ <;> simp_all [le]
    | false => rcases y with _ | (_ | _) | _ <;> simp_all [le]
  | finite s m =>
    cases y with
    | nan => simp [le] at hxy
    | infinity negative => cases negative <;> rcases z with _ | (_ | _) | _ <;> simp_all [le]
    | finite t n =>
      cases z with
      | nan => contradiction
      | infinity negative => cases negative <;> simp_all [le]
      | finite u k =>
        simp only [le, decide_eq_true_eq] at hxy hyz ⊢
        exact Int.le_trans hxy hyz

end Double

/-- A bound that a confidence is held against: a double, or an integer of any size. -/
inductive Number where
  | integer (value : Int)
  | real (value : Double)
  deriving DecidableEq, Repr

namespace Number

/-- Is the bound at most the double `x`? An integer is compared exactly, not after rounding. -/
def atMost : Number → Double → Bool
  | real b, x => b.le x
  | integer i, .finite s m => i * Double.grainsPerOne ≤ Double.signedGrains s m
  | integer _, .infinity negative => !negative
  | integer _, .nan => false

end Number

end LintFront
