import ApiPayload.Calendar.Date

/-
Points of local time with their offset from universal time, written as in internet timestamps.
A leap second is second 59 with a second billion of nanoseconds.
-/
namespace ApiPayload

namespace DateTime

def billion : Nat := 1000000000

/-- Four-digit years; a leap second only after second 59; an offset of less than a day. -/
abbrev Exists (date : Date) (hour minute second nanos : Nat) (offset : Int) : Prop :=
  0 ≤ date.year ∧ date.year ≤ 9999 ∧ hour < 24 ∧ minute < 60 ∧ second < 60 ∧
    nanos < 2 * billion ∧ (billion ≤ nanos → second = 59) ∧ -1440 < offset ∧ offset < 1440

end DateTime

/-- The offset is in minutes, positive to the east. -/
structure DateTime where
  date : Date
  hour : Nat
  minute : Nat
  second : Nat
  nanos : Nat
  offset : Int
  isReal : DateTime.Exists date hour minute second nanos offset
  deriving DecidableEq

namespace DateTime

/-- No fraction, or three, six or nine digits: the fewest that are exact. -/
def fractionChars (nanos : Nat) : List Char :=
  if nanos = 0 then []
  else if nanos % 1000000 = 0 then '.' :: Date.padded 3 (nanos / 1000000)
  else if nanos % 1000 = 0 then '.' :: Date.padded 6 (nanos / 1000)
  else '.' :: Date.padded 9 nanos

def offsetChars (offset : Int) : List Char :=
  if offset = 0 then ['Z']
  else
    (if offset < 0 then '-' else '+') ::
      Date.padded 2 (offset.natAbs / 60) ++ ':' :: Date.padded 2 (offset.natAbs % 60)

def chars (t : DateTime) : List Char :=
  let leap := decide (billion ≤ t.nanos)
  t.date.chars ++ 'T' :: Date.padded 2 t.hour ++ ':' :: Date.padded 2 t.minute ++
    ':' :: Date.padded 2 (if leap then t.second + 1 else t.second) ++
    fractionChars (if leap then t.nanos - billion else t.nanos) ++ offsetChars t.offset

def text (t : DateTime) : String := String.ofList t.chars

def fixedDigits : Nat → Nat → List Char → Except DateFault (Nat × List Char)
  | 0, n, s => .ok (n, s)
  | _ + 1, _, [] => .error .tooShort
  | k + 1, n, c :: rest =>
    if c.isDigit then fixedDigits k (n * 10 + (c.toNat - '0'.toNat)) rest
    else .error .badCharacter

def expectOne (marks : List Char) : List Char → Except DateFault (List Char)
  | [] => .error .tooShort
  | c :: rest => if c ∈ marks then .ok rest else .error .badCharacter

/-- Up to nine digits of a second count; the rest are passed over. -/
def readFraction (s : List Char) : Except DateFault (Nat × List Char) :=
  match s with
  | '.' :: r => do
    let (n, r') ← Date.digits 9 r
    let count := r.length - r'.length
    .ok (n * Nat.pow 10 (9 - count), r'.dropWhile Char.isDigit)
  | _ => .ok (0, s)

def pair : List Char → Except DateFault (Nat × Nat × List Char)
  | [] => .error .tooShort
  | [c] => if 2 ≤ c.utf8Size then .error .badCharacter else .error .tooShort
  | a :: b :: rest =>
    if a.isDigit && b.isDigit then .ok (a.toNat - '0'.toNat, b.toNat - '0'.toNat, rest)
    else .error .badCharacter

/-- `Z`, or a sign with hours and minutes, as minutes. -/
def readOffset (s : List Char) : Except DateFault (Int × List Char) :=
  let signed (sign : Int) (r : List Char) : Except DateFault (Int × List Char) := do
    let (h1, h2, r) ← pair r
    let r ← Date.expect ':' r
    let (m1, m2, r) ← pair r
    if 6 ≤ m1 then .error .outOfRange
    else .ok (sign * ((h1 * 10 + h2) * 60 + (m1 * 10 + m2) : Nat), r)
  match s with
  | 'Z' :: r | 'z' :: r => .ok (0, r)
  | '+' :: r => signed 1 r
  | '-' :: r | '\u2212' :: r => signed (-1) r
  | [] => .error .tooShort
  | _ => .error .badCharacter

def least : Nat := 19

/-- A date, `T` or a blank, a time of day with an optional fraction, and an offset. -/
def read (s : String) : Except DateFault DateTime := do
  if s.utf8ByteSize < least then .error .tooShort
  else
    let (year, r) ← fixedDigits 4 0 s.toList
    let r ← expectOne ['-'] r
    let (month, r) ← fixedDigits 2 0 r
    let r ← expectOne ['-'] r
    let (day, r) ← fixedDigits 2 0 r
    match Date.of? year month day with
    | none => .error .outOfRange
    | some date =>
      let r ← expectOne ['T', 't', ' '] r
      let (hour, r) ← fixedDigits 2 0 r
      let r ← expectOne [':'] r
      let (minute, r) ← fixedDigits 2 0 r
      let r ← expectOne [':'] r
      let (second, r) ← fixedDigits 2 0 r
      let (fraction, r) ← readFraction r
      if 23 < hour ∨ 59 < minute ∨ 60 < second then .error .outOfRange
      else
        let (offset, r) ← readOffset r
        let leap := decide (second = 60)
        let second := if leap then 59 else second
        let nanos := if leap then billion + fraction else fraction
        if r ≠ [] then .error .tooLong
        else if h : Exists date hour minute second nanos offset then
          .ok ⟨date, hour, minute, second, nanos, offset, h⟩
        else .error .outOfRange

end DateTime
end ApiPayload
