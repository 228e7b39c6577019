import SupervisedWorker.Number.Binary64

/-!
# Numerals

Whole numbers are a sign and ASCII digits. Decimal numerals may have a point and an exponent of ten;
there must be a digit before or behind the point. Infinity and what is not a number have names.
-/

namespace SupervisedWorker

namespace Numeral

/-- The number that ASCII digits in a base below eleven stand for. -/
def ofDigits (base : Nat) (ds : List Char) : Nat :=
  ds.foldl (fun n d => n * base + (d.toNat - '0'.toNat)) 0

/-- The leading ASCII digits and the rest. -/
def splitDigits (s : List Char) : List Char × List Char := s.span Char.isDigit

/-- A text of at least one ASCII digit and nothing else. -/
def natural (s : List Char) : Option Nat :=
  if s ≠ [] && s.all Char.isDigit then some (ofDigits 10 s) else none

/-- Takes a sign off, if there is one: whether it is negative, and the rest. -/
def splitSign : List Char → Bool × List Char
  | '-' :: s => (true, s)
  | '+' :: s => (false, s)
  | s => (false, s)

/-- A whole number with an optional sign. -/
def whole (s : List Char) : Option Int :=
  let (negative, ds) := splitSign s
  (natural ds).map fun n => if negative then -(n : Int) else n

/-- An integer that 64 bits with a sign hold. -/
def signed64 (n : Int) : Option Int :=
  if -0x8000000000000000 ≤ n && n < 0x8000000000000000 then some n else none

/-- A natural number with an optional plus sign. -/
def unsigned : List Char → Option Nat
  | '+' :: ds => natural ds
  | ds => natural ds

/-- The exponent at the end of a numeral, if it is all that is left. -/
def exponent : List Char → Option Int
  | [] => some 0
  | c :: s => if c == 'e' || c == 'E' then whole s else none

/-- The digits before the point, those behind it, and the exponent, without a sign. -/
def decimalParts (s : List Char) : Option (List Char × List Char × Int) :=
  let (front, rest) := splitDigits s
  let (back, rest) := match rest with
    | '.' :: rest => splitDigits rest
    | rest => ([], rest)
  if front = [] && back = [] then none
  else (exponent rest).map fun e => (front, back, e)

/-- The number nearest to a decimal numeral without a sign. -/
def nearest (negative : Bool) (front back : List Char) (e : Int) : Binary64 :=
  Binary64.ofDecimal negative (ofDigits 10 (front ++ back)) (e - back.length)

/-- A decimal numeral, or the name of a number that has none, in any case. -/
def decimal (s : List Char) : Option Binary64 :=
  let (negative, s) := splitSign s
  let name := s.map Char.toLower
  if name = "inf".toList || name = "infinity".toList then some (.infinite negative)
  else if name = "nan".toList then some .nan
  else (decimalParts s).map fun (front, back, e) => nearest negative front back e

end Numeral

end SupervisedWorker
