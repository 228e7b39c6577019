/-!
# Spans of time

A span is a number of nanoseconds. `Duration.text` shows it in the largest unit that fits, exactly:
a fraction keeps the digits it needs and no more.
-/

namespace SupervisedWorker

/-- A span of time, in nanoseconds. -/
structure Duration where
  nanos : Nat
deriving DecidableEq, Repr, Inhabited

namespace Duration

def zero : Duration := ⟨0⟩

def ofSecs (n : Nat) : Duration := ⟨n * 1000000000⟩

def ofMillis (n : Nat) : Duration := ⟨n * 1000000⟩

def ofMicros (n : Nat) : Duration := ⟨n * 1000⟩

instance : LT Duration := ⟨fun a b => a.nanos < b.nanos⟩
instance : LE Duration := ⟨fun a b => a.nanos ≤ b.nanos⟩
instance (a b : Duration) : Decidable (a < b) := inferInstanceAs (Decidable (a.nanos < b.nanos))
instance (a b : Duration) : Decidable (a ≤ b) := inferInstanceAs (Decidable (a.nanos ≤ b.nanos))
instance : Add Duration := ⟨fun a b => ⟨a.nanos + b.nanos⟩⟩

/-- The difference of two spans, zero where the second is the longer one. -/
instance : Sub Duration := ⟨fun a b => ⟨a.nanos - b.nanos⟩⟩

/-- The digits of `n`, with zeros in front up to `width`. -/
def paddedDigits (width n : Nat) : List Char :=
  let ds := Nat.toDigits 10 n
  List.replicate (width - ds.length) '0' ++ ds

/-- The part after the decimal point: `rest` in units of `10 ^ -width`, without zeros at the end,
and nothing at all where it is zero. -/
def fractionText (width rest : Nat) : List Char :=
  if rest = 0 then []
  else '.' :: ((paddedDigits width rest).reverse.dropWhile (· == '0')).reverse

/-- `n` units and `rest` parts of a unit, of which there are `10 ^ width`. -/
def inUnit (n rest width : Nat) (unit : String) : String :=
  String.ofList (Nat.toDigits 10 n ++ fractionText width rest) ++ unit

/-- The span in the largest of s, ms, µs and ns that it reaches. -/
def text (d : Duration) : String :=
  if d.nanos ≥ 1000000000 then inUnit (d.nanos / 1000000000) (d.nanos % 1000000000) 9 "s"
  else if d.nanos ≥ 1000000 then inUnit (d.nanos / 1000000) (d.nanos % 1000000) 6 "ms"
  else if d.nanos ≥ 1000 then inUnit (d.nanos / 1000) (d.nanos % 1000) 3 "µs"
  else inUnit d.nanos 0 0 "ns"

end Duration

end SupervisedWorker
