import ApiPayload.Decimal.Layout

/-
JSON numbers: whole numbers of 64 bits and finite binary64 numbers. The kind is kept, so 1 and 1.0
are different numbers of the same size.
-/
namespace ApiPayload

inductive Number where
  | int (value : Int)
  | float (value : Float)
  deriving DecidableEq, Repr

namespace Number

/-- The value when it is whole and fits 64 signed bits. -/
def toInt64? : Number → Option Int
  | int i => if -9223372036854775808 ≤ i ∧ i < 9223372036854775808 then some i else none
  | float _ => none

def toFloat : Number → Float
  | int i => .ofInt i
  | float x => x

def toFraction : Number → Decimal.Fraction
  | int i => .ofInt i
  | float x => .ofFloat x

def render : Number → String
  | int i => toString i
  | float x => Decimal.Layout.wire.render x

/-- Equal kind and equal value; a zero has no sign here. -/
def same : Number → Number → Bool
  | int a, int b => a = b
  | float a, float b => a == b
  | _, _ => false

def sameValue (a b : Number) : Bool := a.toFraction.compare b.toFraction = .eq

end Number
end ApiPayload
