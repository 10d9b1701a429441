/-
Hexadecimal digits.
-/
namespace ApiPayload.Text

def hexDigit? (c : Char) : Option Nat :=
  if c.isDigit then some (c.toNat - '0'.toNat)
  else if 'a' ≤ c ∧ c ≤ 'f' then some (c.toNat - 'a'.toNat + 10)
  else if 'A' ≤ c ∧ c ≤ 'F' then some (c.toNat - 'A'.toNat + 10)
  else none

def hexNumber? (ds : List Char) : Option Nat :=
  if ds.isEmpty then none
  else (ds.mapM hexDigit?).map fun ns => ns.foldl (fun n d => n * 16 + d) 0

end ApiPayload.Text
