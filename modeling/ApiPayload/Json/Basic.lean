import ApiPayload.Entries
import ApiPayload.Json.Number

/-
JSON values. Objects are keyed lists, so the order of members is part of a value.
-/
namespace ApiPayload

inductive Json where
  | null
  | bool (b : Bool)
  | number (n : Number)
  | string (s : String)
  | array (items : List Json)
  | object (members : List (String × Json))
  deriving Inhabited

namespace Json

def typeName : Json → String
  | null => "null"
  | bool _ => "boolean"
  | number _ => "number"
  | string _ => "string"
  | array _ => "array"
  | object _ => "object"

def isNull : Json → Bool
  | null => true
  | _ => false

def bool? : Json → Option Bool
  | bool b => some b
  | _ => none

def string? : Json → Option String
  | string s => some s
  | _ => none

def array? : Json → Option (List Json)
  | array xs => some xs
  | _ => none

def object? : Json → Option (List (String × Json))
  | object ms => some ms
  | _ => none

def member? (key : String) : Json → Option Json
  | object ms => Entries.get? key ms
  | _ => none

theorem isNull_iff {v : Json} : v.isNull = true ↔ v = null := by
  cases v <;> simp [isNull]

theorem string?_eq_some {v : Json} {s : String} : v.string? = some s ↔ v = string s := by
  cases v <;> simp [string?]

theorem array?_eq_some {v : Json} {xs : List Json} : v.array? = some xs ↔ v = array xs := by
  cases v <;> simp [array?]

theorem object?_eq_some {v : Json} {ms : List (String × Json)} :
    v.object? = some ms ↔ v = object ms := by
  cases v <;> simp [object?]

mutual
def decEq : (a b : Json) → Decidable (a = b)
  | null, null => .isTrue rfl
  | bool a, bool b => if h : a = b then .isTrue (h ▸ rfl) else .isFalse (by simpa using h)
  | number a, number b => if h : a = b then .isTrue (h ▸ rfl) else .isFalse (by simpa using h)
  | string a, string b => if h : a = b then .isTrue (h ▸ rfl) else .isFalse (by simpa using h)
  | array a, array b =>
    match decEqItems a b with
    | .isTrue h => .isTrue (h ▸ rfl)
    | .isFalse h => .isFalse (by simpa using h)
  | object a, object b =>
    match decEqMembers a b with
    | .isTrue h => .isTrue (h ▸ rfl)
    | .isFalse h => .isFalse (by simpa using h)
  | null, bool _ | null, number _ | null, string _ | null, array _ | null, object _
  | bool _, null | bool _, number _ | bool _, string _ | bool _, array _ | bool _, object _
  | number _, null | number _, bool _ | number _, string _ | number _, array _ | number _, object _
  | string _, null | string _, bool _ | string _, number _ | string _, array _ | string _, object _
  | array _, null | array _, bool _ | array _, number _ | array _, string _ | array _, object _
  | object _, null | object _, bool _ | object _, number _ | object _, string _
  | object _, array _ => .isFalse (by simp)

def decEqItems : (a b : List Json) → Decidable (a = b)
  | [], [] => .isTrue rfl
  | [], _ :: _ | _ :: _, [] => .isFalse (by simp)
  | a :: as, b :: bs =>
    match decEq a b, decEqItems as bs with
    | .isTrue h, .isTrue t => .isTrue (h ▸ t ▸ rfl)
    | .isFalse h, _ => .isFalse (by simp [h])
    | _, .isFalse t => .isFalse (by simp [t])

def decEqMembers : (a b : List (String × Json)) → Decidable (a = b)
  | [], [] => .isTrue rfl
  | [], _ :: _ | _ :: _, [] => .isFalse (by simp)
  | (k, a) :: as, (l, b) :: bs =>
    match decEq a b, decEqMembers as bs with
    | .isTrue h, .isTrue t =>
      if e : k = l then .isTrue (h ▸ t ▸ e ▸ rfl) else .isFalse (by simp [e])
    | .isFalse h, _ => .isFalse (by simp [h])
    | _, .isFalse t => .isFalse (by simp [t])
end

instance : DecidableEq Json := decEq

mutual
/-- The number of values in a value, itself included. -/
def size : Json → Nat
  | array xs => 1 + sizeItems xs
  | object ms => 1 + sizeMembers ms
  | _ => 1

def sizeItems : List Json → Nat
  | [] => 0
  | x :: xs => size x + sizeItems xs

def sizeMembers : List (String × Json) → Nat
  | [] => 0
  | (_, x) :: ms => size x + sizeMembers ms
end

theorem size_le_of_mem_items {x : Json} {xs : List Json} (h : x ∈ xs) : size x ≤ sizeItems xs := by
  induction xs with
  | nil => simp at h
  | cons y ys ih =>
    rcases List.mem_cons.mp h with rfl | h
    · simp [sizeItems]
    · have := ih h
      simp only [sizeItems]
      omega

theorem size_le_of_mem_members {k : String} {x : Json} {ms : List (String × Json)}
    (h : (k, x) ∈ ms) : size x ≤ sizeMembers ms := by
  induction ms with
  | nil => simp at h
  | cons m rest ih =>
    obtain ⟨l, y⟩ := m
    rcases List.mem_cons.mp h with e | h
    · obtain ⟨rfl, rfl⟩ := Prod.mk.inj e
      simp [sizeMembers]
    · have := ih h
      simp only [sizeMembers]
      omega

theorem size_pos (x : Json) : 0 < size x := by
  cases x <;> unfold size <;> omega

mutual
/-- Equal up to the order of members; numbers by `Number.same`. -/
def same : Json → Json → Bool
  | null, null => true
  | bool a, bool b => a = b
  | number a, number b => a.same b
  | string a, string b => a = b
  | array a, array b => sameItems a b
  | object a, object b => a.length = b.length && sameMembers a b
  | _, _ => false

def sameItems : List Json → List Json → Bool
  | [], [] => true
  | a :: as, b :: bs => same a b && sameItems as bs
  | _, _ => false

def sameMembers : List (String × Json) → List (String × Json) → Bool
  | [], _ => true
  | (k, a) :: rest, b =>
    (match Entries.get? k b with
      | some x => same a x
      | none => false) && sameMembers rest b
end

mutual
/-- No object inside repeats a key. -/
def KeysUnique : Json → Prop
  | array xs => KeysUniqueItems xs
  | object ms => (Entries.keys ms).Nodup ∧ KeysUniqueMembers ms
  | _ => True

def KeysUniqueItems : List Json → Prop
  | [] => True
  | x :: xs => KeysUnique x ∧ KeysUniqueItems xs

def KeysUniqueMembers : List (String × Json) → Prop
  | [] => True
  | (_, x) :: ms => KeysUnique x ∧ KeysUniqueMembers ms
end

end Json
end ApiPayload
