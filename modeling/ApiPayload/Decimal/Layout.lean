import ApiPayload.Decimal.Shortest

/-
The text of a binary64 number: a layout says between which magnitudes a decimal is written out
with a point, whether a whole number keeps a final zero, and how ties between shortest decimals go.
-/
namespace ApiPayload.Decimal

/-- Bounds hold for the power of ten just above the number; `none` is unbounded. -/
structure Layout where
  above : Option Int
  upTo : Option Int
  keepPoint : Bool
  tie : Tie

def zeros (n : Nat) : List Char := List.replicate n '0'

def pointed (keepPoint : Bool) (ds : List Char) (point : Int) : List Char :=
  if point ≤ 0 then '0' :: '.' :: zeros (-point).toNat ++ ds
  else
    let n := point.toNat
    if n < ds.length then ds.take n ++ '.' :: ds.drop n
    else ds ++ zeros (n - ds.length) ++ (if keepPoint then ['.', '0'] else [])

def scientific (ds : List Char) (point : Int) : List Char :=
  let lead := match ds with
    | [] => []
    | [d] => [d]
    | d :: rest => d :: '.' :: rest
  let e := point - 1
  lead ++ 'e' :: (if e < 0 then '-' else '+') :: Nat.toDigits 10 e.natAbs

def Layout.render (l : Layout) (x : Float) : String :=
  let d := Dyadic.ofFloat x
  let sign := if d.negative then ['-'] else []
  let body :=
    if d.mantissa = 0 then '0' :: (if l.keepPoint then ['.', '0'] else [])
    else
      let s := shortest l.tie d
      let ds := Nat.toDigits 10 s.digits
      let point := ds.length + s.exponent
      let inside := (l.above.all (· < point)) && (l.upTo.all (point ≤ ·))
      if inside then pointed l.keepPoint ds point else scientific ds point
  String.ofList (sign ++ body)

/-- Positional from 0.00001 up to 10^16, a ratio of powers of ten beyond. -/
def Layout.wire : Layout := ⟨some (-5), some 16, true, .toEven⟩

/-- Always positional, whole numbers without a point. -/
def Layout.plain : Layout := ⟨none, none, false, .up⟩

end ApiPayload.Decimal
