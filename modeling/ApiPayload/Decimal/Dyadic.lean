/-
Finite binary64 numbers as a sign, a whole mantissa and a power of two, and exact comparison of
such numbers and integers as fractions.
-/
namespace ApiPayload.Decimal

structure Dyadic where
  negative : Bool
  mantissa : Nat
  exponent : Int
  deriving DecidableEq, Repr

/-- The bits of a finite number: a zero exponent field means no hidden bit. -/
def Dyadic.ofBits (bits : Nat) : Dyadic :=
  let field : Nat := bits / Nat.pow 2 52 % Nat.pow 2 11
  let fraction : Nat := bits % Nat.pow 2 52
  let negative := decide (bits / Nat.pow 2 63 % 2 = 1)
  if field = 0 then ⟨negative, fraction, -1074⟩
  else ⟨negative, Nat.pow 2 52 + fraction, (field : Int) - 1075⟩

def Dyadic.ofFloat (x : Float) : Dyadic := .ofBits x.toBits.toNat

structure Fraction where
  num : Int
  den : Nat
  den_pos : 0 < den

namespace Fraction

def ofInt (i : Int) : Fraction := ⟨i, 1, Nat.one_pos⟩

def ofDyadic (d : Dyadic) : Fraction :=
  let signed : Int := if d.negative then -(d.mantissa : Int) else d.mantissa
  if d.exponent < 0 then ⟨signed, Nat.pow 2 (-d.exponent).toNat, Nat.two_pow_pos _⟩
  else ⟨signed * (Nat.pow 2 d.exponent.toNat : Nat), 1, Nat.one_pos⟩

def ofFloat (x : Float) : Fraction := ofDyadic (.ofFloat x)

def compare (a b : Fraction) : Ordering := Ord.compare (a.num * b.den) (b.num * a.den)

def isWhole (a : Fraction) : Bool := a.num % a.den = 0

/-- Whether `a` is a whole number of times `b`; nothing is a multiple of zero. -/
def isMultiple (a b : Fraction) : Bool :=
  b.num ≠ 0 && (a.num * b.den) % (b.num * a.den) = 0

end Fraction
end ApiPayload.Decimal
