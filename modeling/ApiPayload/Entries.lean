/-
Keyed lists. Order is the order of first insertion and keys stay unique, so a list of pairs is a
finite map whose order can be shown.
-/
namespace ApiPayload.Entries

variable {κ : Type u} {α : Type v} {β : Type w} [DecidableEq κ]

def keys (es : List (κ × α)) : List κ := es.map Prod.fst

def get? (key : κ) : List (κ × α) → Option α
  | [] => none
  | (k, a) :: rest => if k = key then some a else get? key rest

def contains (key : κ) (es : List (κ × α)) : Bool := (get? key es).isSome

/-- A known key keeps its place and takes the new value; a new key goes to the end. -/
def insert (key : κ) (value : α) : List (κ × α) → List (κ × α)
  | [] => [(key, value)]
  | (k, a) :: rest => if k = key then (k, value) :: rest else (k, a) :: insert key value rest

/-- Without the key; the last entry takes its place. -/
def swapErase (key : κ) (es : List (κ × α)) : List (κ × α) :=
  match es.findIdx? (·.1 = key), es.getLast? with
  | some i, some last => (es.set i last).dropLast
  | _, _ => es

def ofList (es : List (κ × α)) : List (κ × α) := es.foldl (fun acc e => insert e.1 e.2 acc) []

def mapValues (f : α → β) (es : List (κ × α)) : List (κ × β) := es.map (fun e => (e.1, f e.2))

theorem get?_insert (key other : κ) (value : α) (es : List (κ × α)) :
    get? other (insert key value es) = if key = other then some value else get? other es := by
  induction es with
  | nil => simp [insert, get?]
  | cons e rest ih =>
    obtain ⟨k, a⟩ := e
    by_cases hk : k = key
    · subst hk
      by_cases ho : k = other <;> simp [insert, get?, ho]
    · by_cases ho : k = other
      · subst ho
        simp [insert, get?, hk, Ne.symm hk]
      · simp [insert, get?, hk, ho, ih]

theorem keys_insert (key : κ) (value : α) (es : List (κ × α)) :
    keys (insert key value es) = if key ∈ keys es then keys es else keys es ++ [key] := by
  induction es with
  | nil => simp [insert, keys]
  | cons e rest ih =>
    obtain ⟨k, a⟩ := e
    by_cases hk : k = key
    · simp [insert, keys, hk]
    · have hm : key ∈ keys ((k, a) :: rest) ↔ key ∈ keys rest := by
        simp [keys, Ne.symm hk]
      simp only [insert, hk, if_false]
      by_cases hin : key ∈ keys rest
      · simp only [hm, hin, if_true] at ih ⊢
        simpa [keys] using ih
      · simp only [hm, hin, if_false] at ih ⊢
        simpa [keys] using ih

theorem get?_eq_none_iff (key : κ) (es : List (κ × α)) : get? key es = none ↔ key ∉ keys es := by
  induction es with
  | nil => simp [get?, keys]
  | cons e rest ih =>
    obtain ⟨k, a⟩ := e
    by_cases hk : k = key
    · simp [get?, keys, hk]
    · simp only [get?, hk, if_false, ih]
      simp [keys, Ne.symm hk]

theorem get?_mapValues (f : α → β) (key : κ) (es : List (κ × α)) :
    get? key (mapValues f es) = (get? key es).map f := by
  induction es with
  | nil => rfl
  | cons e rest ih =>
    obtain ⟨k, a⟩ := e
    by_cases hk : k = key
    · simp [mapValues, get?, hk]
    · simpa [mapValues, get?, hk] using ih

omit [DecidableEq κ] in
theorem keys_mapValues (f : α → β) (es : List (κ × α)) : keys (mapValues f es) = keys es := by
  simp [keys, mapValues]

theorem get?_append (key : κ) (es fs : List (κ × α)) :
    get? key (es ++ fs) = (get? key es).or (get? key fs) := by
  induction es with
  | nil => rfl
  | cons e rest ih =>
    obtain ⟨k, a⟩ := e
    by_cases hk : k = key
    · simp [get?, hk]
    · simp [get?, hk, ih]

theorem contains_iff {key : κ} {es : List (κ × α)} : contains key es = true ↔ key ∈ keys es := by
  rw [contains, Option.isSome_iff_ne_none, Ne, get?_eq_none_iff, Decidable.not_not]

theorem mem_of_get? {key : κ} {value : α} {es : List (κ × α)} (h : get? key es = some value) :
    (key, value) ∈ es := by
  induction es with
  | nil => simp [get?] at h
  | cons e rest ih =>
    obtain ⟨k, a⟩ := e
    by_cases hk : k = key
    · simp [get?, hk] at h
      simp [hk, h]
    · simp only [get?, hk, if_false] at h
      exact List.mem_cons_of_mem _ (ih h)

end ApiPayload.Entries
