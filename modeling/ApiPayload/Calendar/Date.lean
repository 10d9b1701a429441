import ApiPayload.Text.Blank

/-
Calendar dates of the proleptic Gregorian calendar, their written form and its reader.
-/
namespace ApiPayload

inductive DateFault where
  | badCharacter
  | tooShort
  | tooLong
  | outOfRange
  deriving DecidableEq, Repr

def DateFault.message : DateFault → String
  | badCharacter => "input contains invalid characters"
  | tooShort => "premature end of input"
  | tooLong => "trailing input"
  | outOfRange => "input is out of range"

def isLeapYear (year : Int) : Bool :=
  year % 4 = 0 && (year % 100 ≠ 0 || year % 400 = 0)

def daysIn (year : Int) (month : Nat) : Nat :=
  if month = 2 then (if isLeapYear year then 29 else 28)
  else if month = 4 ∨ month = 6 ∨ month = 9 ∨ month = 11 then 30
  else 31

namespace Date

def minYear : Int := -262143
def maxYear : Int := 262142

/-- The days that exist within the supported years. -/
abbrev Exists (year : Int) (month day : Nat) : Prop :=
  minYear ≤ year ∧ year ≤ maxYear ∧ 1 ≤ month ∧ month ≤ 12 ∧ 1 ≤ day ∧ day ≤ daysIn year month

end Date

structure Date where
  year : Int
  month : Nat
  day : Nat
  isReal : Date.Exists year month day
  deriving DecidableEq

namespace Date

def of? (year : Int) (month day : Nat) : Option Date :=
  if h : Exists year month day then some ⟨year, month, day, h⟩ else none

def padded (width n : Nat) : List Char :=
  let ds := Nat.toDigits 10 n
  List.replicate (width - ds.length) '0' ++ ds

def yearChars (year : Int) : List Char :=
  if 0 ≤ year ∧ year ≤ 9999 then padded 4 year.natAbs
  else (if year < 0 then '-' else '+') :: padded 4 year.natAbs

def chars (d : Date) : List Char :=
  yearChars d.year ++ '-' :: padded 2 d.month ++ '-' :: padded 2 d.day

def text (d : Date) : String := String.ofList d.chars

/-- Digits up to a count, at least one; values past 63 bits are out of range. -/
def digits (atMost : Nat) (s : List Char) : Except DateFault (Nat × List Char) :=
  go atMost 0 true s
where
  go : Nat → Nat → Bool → List Char → Except DateFault (Nat × List Char)
  | 0, n, _, s => .ok (n, s)
  | _ + 1, n, first, [] => if first then .error .tooShort else .ok (n, [])
  | k + 1, n, first, c :: rest =>
    if c.isDigit then
      let m := n * 10 + (c.toNat - '0'.toNat)
      if m < 9223372036854775808 then go k m false rest else .error .outOfRange
    else if first then .error .badCharacter
    else .ok (n, c :: rest)

def skipBlanks (s : List Char) : List Char := s.dropWhile Text.isBlank

/-- A year may carry a sign, and then any number of digits. -/
def readYear (s : List Char) : Except DateFault (Int × List Char) := do
  let (year, rest) ← match skipBlanks s with
    | '-' :: r => do
      let (n, r) ← digits r.length.succ r
      pure (-(n : Int), r)
    | '+' :: r => do
      let (n, r) ← digits r.length.succ r
      pure ((n : Int), r)
    | r => do
      let (n, r) ← digits 4 r
      pure ((n : Int), r)
  if -2147483648 ≤ year ∧ year < 2147483648 then .ok (year, rest) else .error .outOfRange

/-- A number of one or two digits from 1 up to a bound. -/
def readPart (bound : Nat) (s : List Char) : Except DateFault (Nat × List Char) := do
  let (n, rest) ← digits 2 (skipBlanks s)
  if 1 ≤ n ∧ n ≤ bound then .ok (n, rest) else .error .outOfRange

def expect (mark : Char) : List Char → Except DateFault (List Char)
  | [] => .error .tooShort
  | c :: rest => if c = mark then .ok rest else .error .badCharacter

/-- Year, month and day with dashes between; blanks may stand before each number. -/
def read (s : String) : Except DateFault Date := do
  let (year, r) ← readYear s.toList
  let r ← expect '-' r
  let (month, r) ← readPart 12 r
  let r ← expect '-' r
  let (day, r) ← readPart 31 r
  if r ≠ [] then .error .tooLong
  else match of? year month day with
    | some d => .ok d
    | none => .error .outOfRange

end Date
end ApiPayload
