import ApiPayload.Decimal.Dyadic

/-
Shortest decimals. Of the decimals that read back as a given binary64 number, the one with the
fewest digits, and of those the nearest. All arithmetic is exact.
-/
namespace ApiPayload.Decimal

structure Scaled where
  digits : Nat
  exponent : Int
  deriving DecidableEq, Repr

inductive Tie where
  | toEven
  | up
  deriving DecidableEq, Repr

/-- The reals that round to a number, as multiples of `unit / den`: the value and both ends. -/
structure Interval where
  low : Nat
  value : Nat
  high : Nat
  den : Nat
  closed : Bool

/-- Half a step on each side, a quarter step below when the mantissa is the least of its binade. -/
def Interval.ofDyadic (d : Dyadic) : Interval :=
  let below := if d.mantissa = Nat.pow 2 52 ∧ d.exponent ≠ -1074 then 1 else 2
  let e := d.exponent - 2
  let scale := Nat.pow 2 e.toNat
  ⟨(4 * d.mantissa - below) * scale, 4 * d.mantissa * scale, (4 * d.mantissa + 2) * scale,
    Nat.pow 2 (-e).toNat, d.mantissa % 2 = 0⟩

def Interval.contains (i : Interval) (n : Nat) (k : Int) : Bool :=
  let point := n * Nat.pow 10 k.toNat * i.den
  let scale := Nat.pow 10 (-k).toNat
  if i.closed then decide (i.low * scale ≤ point) && decide (point ≤ i.high * scale)
  else decide (i.low * scale < point) && decide (point < i.high * scale)

def digitCount (n : Nat) : Nat := (Nat.toDigits 10 n).length

/-- The least `k` with `num / den < 10 ^ k`, for a positive quotient. -/
def magnitude (num den : Nat) : Int :=
  if den ≤ num then digitCount (num / den)
  else
    let guess := digitCount den - digitCount num
    let reach (j : Nat) : Bool := den ≤ num * Nat.pow 10 j
    if reach (guess - 1) then 2 - (guess : Int)
    else if reach guess then 1 - (guess : Int)
    else -(guess : Int)

/-- The multiple of `10 ^ k` inside the interval nearest to its value. -/
def nearestOn (tie : Tie) (i : Interval) (k : Int) : Option Nat :=
  let num := i.value * Nat.pow 10 (-k).toNat
  let den := i.den * Nat.pow 10 k.toNat
  let q := num / den
  match i.contains q k, i.contains (q + 1) k with
  | false, false => none
  | true, false => some q
  | false, true => some (q + 1)
  | true, true =>
    let twice := 2 * (num - q * den)
    if twice < den then some q
    else if den < twice then some (q + 1)
    else match tie with
      | .up => some (q + 1)
      | .toEven => some (if q % 2 = 0 then q else q + 1)

/-- Trailing zeros move into the exponent; `fuel` bounds the number of digits. -/
def trimZeros : Nat → Nat → Int → Scaled
  | 0, n, k => ⟨n, k⟩
  | fuel + 1, n, k => if n % 10 = 0 ∧ n ≠ 0 then trimZeros fuel (n / 10) (k + 1) else ⟨n, k⟩

/-- Grids of 1, 2, ... digits in turn; seventeen digits always suffice. -/
def search (tie : Tie) (i : Interval) (top : Int) : Nat → Nat → Scaled
  | 0, _ => ⟨i.value / i.den, 0⟩
  | fuel + 1, n =>
    match nearestOn tie i (top - n) with
    | some q => trimZeros (n + 1) q (top - n)
    | none => search tie i top fuel (n + 1)

def shortest (tie : Tie) (d : Dyadic) : Scaled :=
  if d.mantissa = 0 then ⟨0, 0⟩
  else
    let i := Interval.ofDyadic d
    search tie i (magnitude i.value i.den) 17 1

end ApiPayload.Decimal
