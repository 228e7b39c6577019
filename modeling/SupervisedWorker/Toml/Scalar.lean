import SupervisedWorker.Toml.Moment
import SupervisedWorker.Toml.Value

/-!
# Numbers, booleans and moments in TOML

Digits may be parted by single underscores. A decimal number has no needless zero in front; a number
in base two, eight or sixteen has no sign. Integers must fit 64 bits with a sign, and a decimal
fraction must not be too large for a binary64 number.
-/

namespace SupervisedWorker

namespace Toml

/-- Digits that satisfy `p`, without the underscores that may part them. -/
def digitRun (p : Char → Bool) : (afterDigit : Bool) → List Char → Option (List Char)
  | afterDigit, [] => if afterDigit then some [] else none
  | afterDigit, c :: s =>
    if p c then (digitRun p true s).map (c :: ·)
    else if c == '_' && afterDigit then digitRun p false s
    else none

/-- The digits of a decimal whole number. -/
def wholeDigits (s : List Char) : Option (List Char) :=
  match digitRun Char.isDigit false s with
  | some ('0' :: _ :: _) => none
  | ds => ds

/-- What a digit of base sixteen stands for. -/
def digitValue (c : Char) : Nat :=
  if c.isDigit then c.toNat - '0'.toNat else c.toLower.toNat - 'a'.toNat + 10

def isHexDigit (c : Char) : Bool :=
  c.isDigit || ('a' ≤ c.toLower && c.toLower ≤ 'f')

/-- The number that digits stand for in a base up to sixteen. -/
def inBase (base : Nat) (ds : List Char) : Nat := ds.foldl (fun n d => n * base + digitValue d) 0

/-- A number in a base that its first two characters name. -/
def basedInteger (base : Nat) (p : Char → Bool) (s : List Char) : Option Int :=
  (digitRun p false s).bind fun ds => Numeral.signed64 (inBase base ds)

/-- An integer. -/
def integer (s : List Char) : Option Int :=
  match s with
  | '0' :: 'x' :: ds => basedInteger 16 isHexDigit ds
  | '0' :: 'o' :: ds => basedInteger 8 (fun c => '0' ≤ c && c ≤ '7') ds
  | '0' :: 'b' :: ds => basedInteger 2 (fun c => c == '0' || c == '1') ds
  | s =>
    let (negative, ds) := Numeral.splitSign s
    (wholeDigits ds).bind fun ds =>
      let n : Int := Numeral.ofDigits 10 ds
      Numeral.signed64 (if negative then -n else n)

/-- The exponent of a decimal fraction, if it is all that is left. -/
def fractionExponent : List Char → Option Int
  | [] => some 0
  | c :: s =>
    if c == 'e' || c == 'E' then
      let (negative, ds) := Numeral.splitSign s
      (digitRun Char.isDigit false ds).map fun ds =>
        let n : Int := Numeral.ofDigits 10 ds
        if negative then -n else n
    else none

/-- A character that ends the digits of a number. -/
def endsDigits (c : Char) : Bool := c == '.' || c == 'e' || c == 'E'

/-- A decimal fraction that is not too large. It has a point or an exponent. -/
def decimal (s : List Char) : Option Binary64 := do
  let (negative, s) := Numeral.splitSign s
  if s = "inf".toList then return .infinite negative
  if s = "nan".toList then return .nan
  let front ← wholeDigits (s.takeWhile (!endsDigits ·))
  let (back, rest) ← match s.dropWhile (!endsDigits ·) with
    | [] => none
    | '.' :: rest => do
      let back ← digitRun Char.isDigit false (rest.takeWhile (!endsDigits ·))
      pure (back, rest.dropWhile (!endsDigits ·))
    | rest => pure ([], rest)
  let e ← fractionExponent rest
  match Numeral.nearest negative front back e with
  | .infinite _ => none
  | x => return x

/-- The value that a word without quotes or brackets stands for. -/
def scalar (word : List Char) : Option Value :=
  if word = "true".toList then some (.boolean true)
  else if word = "false".toList then some (.boolean false)
  else
    match Moment.normal word with
    | some s => some (.moment (String.ofList s))
    | none =>
      match integer word with
      | some n => some (.integer n)
      | none => (decimal word).map .decimal

/-- The characters of such a word. -/
def isWordChar (c : Char) : Bool := c.isAlphanum || "+-_.:".toList.contains c

/-- Reads such a word. A date may be followed by a single space and a time. -/
def readScalar (s : List Char) : Option (Value × List Char) :=
  let (word, rest) := s.span isWordChar
  match rest with
  | ' ' :: c :: more =>
    if c.isDigit && ((Moment.date word).map (·.2.isEmpty)).getD false then
      let (second, rest) := (c :: more).span isWordChar
      (scalar (word ++ ' ' :: second)).map (·, rest)
    else (scalar word).map (·, rest)
  | rest => (scalar word).map (·, rest)

end Toml

end SupervisedWorker
