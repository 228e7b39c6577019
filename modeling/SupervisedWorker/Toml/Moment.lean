import SupervisedWorker.Number.Numeral

/-!
# Dates and times in TOML

A moment is a date, a time, or a date and a time with an optional offset. The normal form has a
capital `T` between date and time and no more digits of a second than are needed, of nine at most.
-/

namespace SupervisedWorker

namespace Toml

namespace Moment

/-- Reads exactly `count` digits. -/
def digits (count : Nat) (s : List Char) : Option (Nat × List Char) :=
  let ds := s.take count
  if ds.length = count && ds.all Char.isDigit then some (Numeral.ofDigits 10 ds, s.drop count)
  else none

/-- Reads one given character. -/
def mark (c : Char) : List Char → Option (List Char)
  | d :: s => if c == d then some s else none
  | [] => none

/-- A year with a day between its February and its March. -/
def isLeap (year : Nat) : Bool := year % 4 == 0 && (year % 100 != 0 || year % 400 == 0)

/-- How many days a month has. -/
def daysIn (year month : Nat) : Nat :=
  if month = 2 then (if isLeap year then 29 else 28)
  else if [4, 6, 9, 11].contains month then 30 else 31

/-- Reads a date, which is its own normal form. -/
def date (s : List Char) : Option (List Char × List Char) := do
  let (year, rest) ← digits 4 s
  let rest ← mark '-' rest
  let (month, rest) ← digits 2 rest
  let rest ← mark '-' rest
  let (day, rest) ← digits 2 rest
  if 1 ≤ month && month ≤ 12 && 1 ≤ day && day ≤ daysIn year month then some (s.take 10, rest)
  else none

/-- The fraction of a second in normal form. -/
def fraction (ds : List Char) : List Char :=
  match ((ds.take 9).reverse.dropWhile (· == '0')).reverse with
  | [] => []
  | kept => '.' :: kept

/-- Reads a time of day. -/
def time (s : List Char) : Option (List Char × List Char) := do
  let (hour, rest) ← digits 2 s
  let rest ← mark ':' rest
  let (minute, rest) ← digits 2 rest
  let rest ← mark ':' rest
  let (second, rest) ← digits 2 rest
  if hour ≤ 23 && minute ≤ 59 && second ≤ 60 then
    match rest with
    | '.' :: rest =>
      let (ds, rest) := Numeral.splitDigits rest
      if ds = [] then none else some (s.take 8 ++ fraction ds, rest)
    | rest => some (s.take 8, rest)
  else none

/-- An offset from universal time, if it is all that is left. A zero offset is not negative. -/
def offset : List Char → Option (List Char)
  | [] => some []
  | c :: s =>
    if (c == 'Z' || c == 'z') && s.isEmpty then some ['Z']
    else if c == '+' || c == '-' then do
      let (hours, rest) ← digits 2 s
      let rest ← mark ':' rest
      let (minutes, rest) ← digits 2 rest
      if rest = [] && minutes ≤ 59 && hours * 60 + minutes ≤ 1440 then
        some ((if hours * 60 + minutes = 0 then '+' else c) :: s)
      else none
    else none

/-- The normal form of a moment. -/
def normal (s : List Char) : Option (List Char) :=
  match date s with
  | some (day, []) => some day
  | some (day, c :: rest) =>
    if c == 'T' || c == 't' || c == ' ' then do
      let (clock, rest) ← time rest
      let shift ← offset rest
      return day ++ 'T' :: clock ++ shift
    else none
  | none =>
    match time s with
    | some (clock, []) => some clock
    | _ => none

end Moment

end Toml

end SupervisedWorker
