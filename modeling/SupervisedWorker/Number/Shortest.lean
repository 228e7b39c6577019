import SupervisedWorker.Number.Binary64

/-!
# The shortest decimal text of a number

Every real number that rounds to a given binary64 number lies in an interval around it, whose ends
belong to it if the significand is even. Of the decimal grids, the coarsest that has a point in the
interval gives the fewest digits, and the point nearest to the number is chosen. The text is
positional, whatever its length.
-/

namespace SupervisedWorker

namespace Binary64

/-- The reals that round to a magnitude, in quarters of a unit. -/
structure Interval where
  low : Nat
  high : Nat
  /-- Whether the ends belong to it. -/
  closed : Bool
deriving DecidableEq, Repr

/-- The interval of a magnitude. Below a power of two the numbers lie twice as close. -/
def interval (units : Nat) : Interval :=
  let step := Nat.pow 2 (spacing units)
  let below := if units = Nat.pow 2 (Nat.log2 units) && 1 < step then step else 2 * step
  ⟨4 * units - below, 4 * units + 2 * step, units / step % 2 == 0⟩

/-- Whether `numerator / denominator` lies in the interval. -/
def Interval.holds (i : Interval) (numerator denominator : Nat) : Bool :=
  if i.closed then i.low * denominator ≤ numerator && numerator ≤ i.high * denominator
  else i.low * denominator < numerator && numerator < i.high * denominator

/-- The point of the grid of step `10 ^ exponent` that stands for a magnitude, as a multiple of the
step: of the two neighbours of the magnitude the nearer one, and of equally near ones the upper. -/
def onGrid (units : Nat) (exponent : Int) : Option Nat :=
  let up := Nat.pow 10 exponent.toNat
  let down := Nat.pow 10 (-exponent).toNat
  let step := 4 * one * up
  let value := 4 * units * down
  let lower := value / step
  let holds := fun point => (interval units).holds (point * step) down
  let lowerFits := 0 < lower && holds lower
  let upperFits := holds (lower + 1)
  if upperFits && (!lowerFits || step ≤ 2 * (value - lower * step)) then some (lower + 1)
  else if lowerFits then some lower
  else none

/-- The exponents of the grids, the coarsest first. Every magnitude has a point on the last one. -/
def gridExponents : List Int := (List.range 634).map fun n => (309 : Int) - Int.ofNat n

/-- The shortest decimal of a magnitude: its digits and the exponent of ten. -/
def shortest (units : Nat) : Nat × Int :=
  if units = 0 then (0, 0)
  else
    (gridExponents.findSome? fun e => (onGrid units e).map fun digits => (digits, e)).getD (0, 0)

/-- `digits · 10 ^ exponent` without an exponent. -/
def positional (digits : Nat) (exponent : Int) : List Char :=
  let ds := Nat.toDigits 10 digits
  match exponent with
  | .ofNat e => ds ++ List.replicate e '0'
  | .negSucc e =>
    let places := e + 1
    let ds := List.replicate (places + 1 - ds.length) '0' ++ ds
    ds.take (ds.length - places) ++ '.' :: ds.drop (ds.length - places)

/-- The number as text. -/
def text : Binary64 → String
  | .nan => "NaN"
  | .infinite negative => if negative then "-inf" else "inf"
  | .finite negative units =>
    let (digits, exponent) := shortest units
    (if negative then "-" else "") ++ String.ofList (positional digits exponent)

/-- The text of a number with a point in it: a whole number gets one. -/
def pointedText (x : Binary64) : String :=
  match x with
  | .finite _ _ => if x.text.toList.contains '.' then x.text else x.text ++ ".0"
  | _ => x.text

end Binary64

end SupervisedWorker
