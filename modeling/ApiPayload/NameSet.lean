/-
Sets of names as strictly ascending lists. Two sets with the same members are equal, and the list
is the order in which a set is shown: by code point, which is also the order of UTF-8 bytes.
-/
namespace ApiPayload

structure NameSet where
  names : List String
  ascending : names.Pairwise (· < ·)

namespace NameSet

instance : DecidableEq NameSet := fun s t =>
  if h : s.names = t.names then .isTrue (by cases s; cases t; simp_all)
  else .isFalse (fun e => h (by rw [e]))

instance : Membership String NameSet := ⟨fun s name => name ∈ s.names⟩

instance (name : String) (s : NameSet) : Decidable (name ∈ s) :=
  inferInstanceAs (Decidable (name ∈ s.names))

def empty : NameSet := ⟨[], .nil⟩

instance : Inhabited NameSet := ⟨empty⟩

def isEmpty (s : NameSet) : Bool := s.names.isEmpty

def insertName (name : String) : List String → List String
  | [] => [name]
  | n :: rest =>
    if name < n then name :: n :: rest
    else if name = n then n :: rest
    else n :: insertName name rest

theorem mem_insertName {name other : String} {names : List String} :
    other ∈ insertName name names ↔ other = name ∨ other ∈ names := by
  induction names with
  | nil => simp [insertName]
  | cons n rest ih =>
    simp only [insertName]
    split
    · simp
    · split
      · rename_i h
        simp [h]
      · simp only [List.mem_cons, ih]
        grind

theorem lt_of_not_lt_of_ne {a b : String} (h : ¬ a < b) (hne : a ≠ b) : b < a := by
  have hba : b ≤ a := String.not_lt.mp h
  rcases Decidable.em (b < a) with hlt | hge
  · exact hlt
  · exact absurd (String.le_antisymm (String.not_lt.mp hge) hba) hne

theorem pairwise_insertName {name : String} {names : List String}
    (h : names.Pairwise (· < ·)) : (insertName name names).Pairwise (· < ·) := by
  induction names with
  | nil => simp [insertName]
  | cons n rest ih =>
    obtain ⟨hn, hrest⟩ := List.pairwise_cons.mp h
    simp only [insertName]
    split
    · rename_i hlt
      refine List.pairwise_cons.mpr ⟨fun m hm => ?_, h⟩
      rcases List.mem_cons.mp hm with rfl | hm
      · exact hlt
      · exact String.lt_trans hlt (hn m hm)
    · split
      · exact h
      · rename_i hnl hne
        refine List.pairwise_cons.mpr ⟨fun m hm => ?_, ih hrest⟩
        rcases mem_insertName.mp hm with rfl | hm
        · exact lt_of_not_lt_of_ne hnl hne
        · exact hn m hm

def insert (name : String) (s : NameSet) : NameSet :=
  ⟨insertName name s.names, pairwise_insertName s.ascending⟩

def ofList (names : List String) : NameSet := names.foldl (fun s n => s.insert n) empty

@[simp] theorem mem_insert {name other : String} {s : NameSet} :
    other ∈ s.insert name ↔ other = name ∨ other ∈ s := mem_insertName

theorem not_mem_empty (name : String) : name ∉ empty := List.not_mem_nil

theorem mem_ofList {name : String} {names : List String} : name ∈ ofList names ↔ name ∈ names := by
  have key : ∀ (ns : List String) (s : NameSet),
      name ∈ ns.foldl (fun s n => s.insert n) s ↔ name ∈ ns ∨ name ∈ s := by
    intro ns
    induction ns with
    | nil => simp
    | cons n rest ih =>
      intro s
      rw [List.foldl_cons, ih, mem_insert]
      grind
  simpa [ofList, not_mem_empty] using key names empty

end NameSet
end ApiPayload
