/-!
# Binary64 numbers, exactly

A finite number is counted in units of `2 ^ -1074`, the least positive number, so that a magnitude
is a natural number and rounding is integer arithmetic. Of the natural numbers only those with at
most 53 significant bits are magnitudes; `Binary64.ofRatio` rounds to the nearest of them, and of
two that are equally near to the one with an even significand.
-/

namespace SupervisedWorker

/-- A binary64 number. -/
inductive Binary64
  | nan
  | infinite (negative : Bool)
  /-- The magnitude is a number of units of `2 ^ -1074`. -/
  | finite (negative : Bool) (units : Nat)
deriving DecidableEq, Repr, Inhabited

namespace Binary64

/-- How many units make one. -/
def one : Nat := Nat.pow 2 1074

/-- The first magnitude that is too large. -/
def limit : Nat := Nat.pow 2 2098

/-- The distance between a magnitude and the next one is two to this power. -/
def spacing (units : Nat) : Nat := Nat.log2 units - 52

/-- The nearest integer to a quotient, and of two equally near ones the even one. -/
def nearestEven (numerator denominator : Nat) : Nat :=
  let whole := numerator / denominator
  let twice := 2 * (numerator % denominator)
  if twice < denominator then whole
  else if denominator < twice then whole + 1
  else whole + whole % 2

/-- The magnitude nearest to a quotient, which may be too large. -/
def nearestUnits (numerator denominator : Nat) : Nat :=
  let scaled := numerator * one
  let step := Nat.pow 2 (spacing (scaled / denominator))
  nearestEven scaled (denominator * step) * step

/-- The number nearest to a quotient of the given sign. -/
def ofRatio (negative : Bool) (numerator denominator : Nat) : Binary64 :=
  let units := nearestUnits numerator denominator
  if units < limit then .finite negative units else .infinite negative

/-- The number nearest to `digits · 10 ^ exponent`. What lies far outside the range is not computed:
the bounds on the decimal magnitude are wider than those of the numbers. -/
def ofDecimal (negative : Bool) (digits : Nat) (exponent : Int) : Binary64 :=
  let magnitude := (Nat.toDigits 10 digits).length + exponent
  if digits = 0 || magnitude < -400 then .finite negative 0
  else if 400 < magnitude then .infinite negative
  else
    match exponent with
    | .ofNat e => ofRatio negative (digits * Nat.pow 10 e) 1
    | .negSucc e => ofRatio negative digits (Nat.pow 10 (e + 1))

/-- A number that is neither zero nor below zero nor above it counts as nonzero. -/
def isZero : Binary64 → Bool
  | .finite _ units => units == 0
  | _ => false

/-- The nearest natural number, halves rounded up, and held within `0` and `top`. -/
def roundWithin (top : Nat) : Binary64 → Nat
  | .nan => 0
  | .infinite negative => if negative then 0 else top
  | .finite negative units => if negative then 0 else min top ((2 * units + one) / (2 * one))

end Binary64

end SupervisedWorker
