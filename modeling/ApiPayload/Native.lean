import ApiPayload.Calendar.DateTime
import ApiPayload.Json.Writer
import ApiPayload.Text.Excerpt

/-
Native values: the shapes of JSON with dates, times and instances of named models added. Every JSON
value is a native value, and every native value has a wire form.
-/
namespace ApiPayload

inductive Native where
  | null
  | bool (b : Bool)
  | number (n : Number)
  | string (s : String)
  | date (d : Date)
  | dateTime (t : DateTime)
  | list (items : List Native)
  | map (entries : List (String × Native))
  | model (name : String) (properties : List (String × Native))
  deriving Inhabited

namespace Native

def typeName : Native → String
  | null => "null"
  | bool _ => "boolean"
  | number _ => "number"
  | string _ => "string"
  | date _ => "date"
  | dateTime _ => "date-time"
  | list _ => "array"
  | map _ => "object"
  | model _ _ => "model"

def isNull : Native → Bool
  | null => true
  | _ => false

def string? : Native → Option String
  | string s => some s
  | _ => none

def list? : Native → Option (List Native)
  | list xs => some xs
  | _ => none

def modelName? : Native → Option String
  | model name _ => some name
  | _ => none

def entries? : Native → Option (List (String × Native))
  | map es => some es
  | model _ ps => some ps
  | _ => none

def get? (key : String) (v : Native) : Option Native := v.entries?.bind (Entries.get? key)

mutual
def ofJson : Json → Native
  | .null => null
  | .bool b => bool b
  | .number n => number n
  | .string s => string s
  | .array xs => list (ofItems xs)
  | .object ms => map (ofMembers ms)

def ofItems : List Json → List Native
  | [] => []
  | x :: xs => ofJson x :: ofItems xs

def ofMembers : List (String × Json) → List (String × Native)
  | [] => []
  | (k, x) :: ms => (k, ofJson x) :: ofMembers ms
end

mutual
/-- Dates and times become texts, models plain objects. -/
def toJson : Native → Json
  | null => .null
  | bool b => .bool b
  | number n => .number n
  | string s => .string s
  | date d => .string d.text
  | dateTime t => .string t.text
  | list xs => .array (toItems xs)
  | map es => .object (toMembers es)
  | model _ ps => .object (toMembers ps)

def toItems : List Native → List Json
  | [] => []
  | x :: xs => toJson x :: toItems xs

def toMembers : List (String × Native) → List (String × Json)
  | [] => []
  | (k, x) :: es => (k, toJson x) :: toMembers es
end

theorem ofItems_eq (xs : List Json) : ofItems xs = xs.map ofJson := by
  induction xs with
  | nil => rfl
  | cons x rest ih => rw [ofItems, ih, List.map_cons]

theorem ofMembers_eq (ms : List (String × Json)) : ofMembers ms = Entries.mapValues ofJson ms := by
  induction ms with
  | nil => rfl
  | cons m rest ih => rw [ofMembers, ih, Entries.mapValues, Entries.mapValues, List.map_cons]

theorem toItems_eq (xs : List Native) : toItems xs = xs.map toJson := by
  induction xs with
  | nil => rfl
  | cons x rest ih => rw [toItems, ih, List.map_cons]

theorem toMembers_eq (es : List (String × Native)) : toMembers es = Entries.mapValues toJson es := by
  induction es with
  | nil => rfl
  | cons e rest ih => rw [toMembers, ih, Entries.mapValues, Entries.mapValues, List.map_cons]

mutual
@[simp] theorem toJson_ofJson : (v : Json) → (ofJson v).toJson = v
  | .null | .bool _ | .number _ | .string _ => rfl
  | .array xs => by rw [ofJson, toJson, toItems_ofItems xs]
  | .object ms => by rw [ofJson, toJson, toMembers_ofMembers ms]

theorem toItems_ofItems : (xs : List Json) → toItems (ofItems xs) = xs
  | [] => rfl
  | x :: xs => by rw [ofItems, toItems, toJson_ofJson x, toItems_ofItems xs]

theorem toMembers_ofMembers : (ms : List (String × Json)) → toMembers (ofMembers ms) = ms
  | [] => rfl
  | (k, x) :: ms => by rw [ofMembers, toMembers, toJson_ofJson x, toMembers_ofMembers ms]
end

theorem isNull_ofJson (v : Json) : (ofJson v).isNull = v.isNull := by
  cases v <;> rfl

theorem typeName_ofJson (v : Json) : (ofJson v).typeName = v.typeName := by
  cases v <;> rfl

theorem string?_ofJson (v : Json) : (ofJson v).string? = v.string? := by
  cases v <;> rfl

theorem list?_ofJson (v : Json) : (ofJson v).list? = v.array?.map (·.map ofJson) := by
  cases v with
  | array xs => rw [ofJson, list?, ofItems_eq, Json.array?, Option.map_some]
  | _ => rfl

theorem entries?_ofJson (v : Json) : (ofJson v).entries? = v.object?.map (Entries.mapValues ofJson) := by
  cases v with
  | object ms => rw [ofJson, entries?, ofMembers_eq, Json.object?, Option.map_some]
  | _ => rfl

mutual
/-- Equal up to the order of entries; numbers by `Number.same`. -/
def same : Native → Native → Bool
  | null, null => true
  | bool a, bool b => a = b
  | number a, number b => a.same b
  | string a, string b => a = b
  | date a, date b => a = b
  | dateTime a, dateTime b => a = b
  | list a, list b => sameItems a b
  | map a, map b => a.length = b.length && sameEntries a b
  | model m a, model n b => m = n && a.length = b.length && sameEntries a b
  | _, _ => false

def sameItems : List Native → List Native → Bool
  | [], [] => true
  | a :: as, b :: bs => same a b && sameItems as bs
  | _, _ => false

def sameEntries : List (String × Native) → List (String × Native) → Bool
  | [], _ => true
  | (k, a) :: rest, b =>
    (match Entries.get? k b with
      | some x => same a x
      | none => false) && sameEntries rest b
end

mutual
def size : Native → Nat
  | list xs => 1 + sizeItems xs
  | map es => 1 + sizeEntries es
  | model _ ps => 1 + sizeEntries ps
  | _ => 1

def sizeItems : List Native → Nat
  | [] => 0
  | x :: xs => size x + sizeItems xs

def sizeEntries : List (String × Native) → Nat
  | [] => 0
  | (_, x) :: es => size x + sizeEntries es
end

theorem size_le_of_mem_items {x : Native} {xs : List Native} (h : x ∈ xs) :
    size x ≤ sizeItems xs := by
  induction xs with
  | nil => simp at h
  | cons y ys ih =>
    rcases List.mem_cons.mp h with rfl | h
    · simp [sizeItems]
    · have := ih h
      simp only [sizeItems]
      omega

theorem size_le_of_mem_entries {k : String} {x : Native} {es : List (String × Native)}
    (h : (k, x) ∈ es) : size x ≤ sizeEntries es := by
  induction es with
  | nil => simp at h
  | cons e rest ih =>
    obtain ⟨l, y⟩ := e
    rcases List.mem_cons.mp h with e | h
    · obtain ⟨rfl, rfl⟩ := Prod.mk.inj e
      simp [sizeEntries]
    · have := ih h
      simp only [sizeEntries]
      omega

def describe (v : Native) : String := Text.excerpt v.toJson.compact

end Native

def Json.describe (v : Json) : String := Text.excerpt v.compact

theorem Native.describe_ofJson (v : Json) : (Native.ofJson v).describe = v.describe := by
  rw [Native.describe, Native.toJson_ofJson, Json.describe]

end ApiPayload
