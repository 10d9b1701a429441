import ApiPayload.Json.Basic

/-
Equality of JSON values as validation sees it: numbers by value, objects member by member in order.
-/
namespace ApiPayload.Json

mutual
/-- `same` decides on numbers, all else is compared part by part. -/
def alikeBy (same : Number → Number → Bool) : Json → Json → Bool
  | null, null => true
  | bool a, bool b => a = b
  | number a, number b => same a b
  | string a, string b => a = b
  | array a, array b => alikeItems same a b
  | object a, object b => alikeMembers same a b
  | _, _ => false

def alikeItems (same : Number → Number → Bool) : List Json → List Json → Bool
  | [], [] => true
  | a :: as, b :: bs => alikeBy same a b && alikeItems same as bs
  | _, _ => false

def alikeMembers (same : Number → Number → Bool) :
    List (String × Json) → List (String × Json) → Bool
  | [], [] => true
  | (k, a) :: as, (l, b) :: bs => k = l && alikeBy same a b && alikeMembers same as bs
  | _, _ => false
end

def alike : Json → Json → Bool := alikeBy Number.sameValue

/-- Numbers have to have the same kind and the same sign of zero too. -/
def identical : Json → Json → Bool := alikeBy fun a b => a = b

def allDistinct (same : Json → Json → Bool) : List Json → Bool
  | [] => true
  | x :: xs => !(xs.any (same x)) && allDistinct same xs

/-- Up to this many items are told apart by value, more of them by kind as well. -/
def shortArray : Nat := 15

def isUnique (xs : List Json) : Bool :=
  allDistinct (if xs.length ≤ shortArray then alike else identical) xs

end ApiPayload.Json
