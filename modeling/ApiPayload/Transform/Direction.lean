import ApiPayload.Transform.Error

/-
The two directions of transformation, as a way to look at inputs and to build outputs. Parts of an
input are smaller than the input, and null has no entries.
-/
namespace ApiPayload

structure Direction (α β : Type) where
  isNull : α → Bool
  null : β
  ofDefault : Json → β
  pass : α → β
  typeName : α → String
  describe : α → String
  string? : α → Option String
  list? : α → Option (List α)
  list : List β → β
  entries? : α → Option (List (String × α))
  object : Option String → List (String × β) → β
  convert : Format.Converter → α → Except Format.Fault β
  size : α → Nat
  size_item : ∀ {v xs x}, list? v = some xs → x ∈ xs → size x < size v
  size_entry : ∀ {v es k x}, entries? v = some es → (k, x) ∈ es → size x < size v
  entries_null : ∀ {v}, isNull v = true → entries? v = none

namespace Direction

def unmarshal : Direction Json Native where
  isNull := Json.isNull
  null := .null
  ofDefault := .ofJson
  pass := .ofJson
  typeName := Json.typeName
  describe := Json.describe
  string? := Json.string?
  list? := Json.array?
  list := .list
  entries? := Json.object?
  object
    | some name, fields => .model name fields
    | none, fields => .map fields
  convert c := c.toNative
  size := Json.size
  size_item := by
    intro v xs x h hx
    cases v <;> simp [Json.array?] at h
    subst h
    have := Json.size_le_of_mem_items hx
    simp only [Json.size]
    omega
  size_entry := by
    intro v es k x h hx
    cases v <;> simp [Json.object?] at h
    subst h
    have := Json.size_le_of_mem_members hx
    simp only [Json.size]
    omega
  entries_null := by
    intro v h
    cases v <;> simp [Json.isNull, Json.object?] at h ⊢

def marshal : Direction Native Json where
  isNull := Native.isNull
  null := .null
  ofDefault := id
  pass := Native.toJson
  typeName := Native.typeName
  describe := Native.describe
  string? := Native.string?
  list? := Native.list?
  list := .array
  entries? := Native.entries?
  object _ fields := .object fields
  convert c := c.toWire
  size := Native.size
  size_item := by
    intro v xs x h hx
    cases v <;> simp [Native.list?] at h
    subst h
    have := Native.size_le_of_mem_items hx
    simp only [Native.size]
    omega
  size_entry := by
    intro v es k x h hx
    cases v <;> simp [Native.entries?] at h
    all_goals
      subst h
      have := Native.size_le_of_mem_entries hx
      simp only [Native.size]
      omega
  entries_null := by
    intro v h
    cases v <;> simp [Native.isNull, Native.entries?] at h ⊢

end Direction
end ApiPayload
