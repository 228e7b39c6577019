/-!
# Texts as bytes

Texts leave the process as UTF-8. A stream may accept only the first bytes of a text, so what it
holds need not be UTF-8 any more; `readable` shows it with a replacement character for every
longest piece that begins no character.
-/

namespace SupervisedWorker.Text

/-- The UTF-8 form of a text. -/
def utf8 (s : String) : List UInt8 := s.toList.flatMap String.utf8EncodeChar

/-- A byte that continues a character. -/
def isContinuation (b : UInt8) : Bool := 0x80 ≤ b && b ≤ 0xBF

/-- The character whose bits are those of the first byte below a bound and six of every other. -/
def charOfBits (lead : UInt8) (bound : Nat) (tail : List UInt8) : Char :=
  Char.ofNat (tail.foldl (fun n b => n * 64 + (b.toNat - 0x80)) (lead.toNat % bound))

/-- Which bytes may follow the first byte of a character of three or four bytes: the ranges that
leave out overlong forms, surrogates and code points above the last one. -/
def secondByte (lead second : UInt8) : Bool :=
  if lead == 0xE0 then 0xA0 ≤ second && second ≤ 0xBF
  else if lead == 0xED then 0x80 ≤ second && second ≤ 0x9F
  else if lead == 0xF0 then 0x90 ≤ second && second ≤ 0xBF
  else if lead == 0xF4 then 0x80 ≤ second && second ≤ 0x8F
  else isContinuation second

/-- The first character of a byte sequence that starts with `lead`, or `none` for a piece that
begins no character, and how many bytes after `lead` belong to it. -/
def firstChar (lead : UInt8) (rest : List UInt8) : Option Char × Nat :=
  if lead < 0x80 then (some (Char.ofNat lead.toNat), 0)
  else if 0xC2 ≤ lead && lead ≤ 0xDF then
    match rest with
    | b :: _ => if isContinuation b then (some (charOfBits lead 32 [b]), 1) else (none, 0)
    | [] => (none, 0)
  else if 0xE0 ≤ lead && lead ≤ 0xEF then
    match rest with
    | b :: rest =>
      if !secondByte lead b then (none, 0) else
      match rest with
      | c :: _ => if isContinuation c then (some (charOfBits lead 16 [b, c]), 2) else (none, 1)
      | [] => (none, 1)
    | [] => (none, 0)
  else if 0xF0 ≤ lead && lead ≤ 0xF4 then
    match rest with
    | b :: rest =>
      if !secondByte lead b then (none, 0) else
      match rest with
      | c :: rest =>
        if !isContinuation c then (none, 1) else
        match rest with
        | d :: _ => if isContinuation d then (some (charOfBits lead 8 [b, c, d]), 3) else (none, 2)
        | [] => (none, 2)
      | [] => (none, 1)
    | [] => (none, 0)
  else (none, 0)

/-- The characters of a byte sequence, with U+FFFD for every piece that begins no character. -/
def readableChars : List UInt8 → List Char
  | [] => []
  | lead :: rest =>
    let (c, used) := firstChar lead rest
    c.getD '\uFFFD' :: readableChars (rest.drop used)
termination_by bytes => bytes.length
decreasing_by simp only [List.length_drop, List.length_cons]; omega

/-- The text that a byte sequence shows. -/
def readable (bytes : List UInt8) : String := String.ofList (readableChars bytes)

/-- The text that a byte sequence is the UTF-8 form of, if it is one. -/
def exactly? (bytes : List UInt8) : Option String :=
  let s := readable bytes
  if utf8 s == bytes then some s else none

end SupervisedWorker.Text
