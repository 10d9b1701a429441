import ApiPayload.Proofs.Links

/-
Slots of a cache. A slot is free, then taken and open, then filled; nothing leads back.
-/
namespace ApiPayload.Cache

variable {c : Cache} {k other : Key} {p : Plan Link}

def isOpen (c : Cache) (k : Key) : Bool := c.isTaken k && !c.isResolved k

theorem isTaken_iff : c.isTaken k = true ↔ k ∈ Entries.keys c.slots := Entries.contains_iff

theorem isResolved_iff : c.isResolved k = true ↔ ∃ p, c.plan? k = some p := by
  rw [isResolved, Option.isSome_iff_exists]

theorem isOpen_iff : c.isOpen k = true ↔ c.isTaken k = true ∧ c.isResolved k = false := by
  rw [isOpen, Bool.and_eq_true, Bool.not_eq_true']

theorem isTaken_of_isResolved (h : c.isResolved k = true) : c.isTaken k = true := by
  unfold isResolved plan? at h
  unfold isTaken Entries.contains
  cases slot : Entries.get? k c.slots <;> simp_all

theorem isTaken_take : (c.take k).isTaken other = (c.isTaken other || decide (k = other)) := by
  unfold isTaken Entries.contains take
  rw [Entries.get?_append]
  by_cases same : k = other <;> simp [Entries.get?, same]

theorem plan?_take : (c.take k).plan? other = c.plan? other := by
  unfold plan? take
  rw [Entries.get?_append]
  by_cases same : k = other <;> cases slot : Entries.get? other c.slots <;> simp [Entries.get?, same]

theorem isResolved_take : (c.take k).isResolved other = c.isResolved other := by
  rw [isResolved, isResolved, plan?_take]

theorem plan?_resolve (unfilled : c.isResolved k = false) (q : Option (Plan Link)) :
    (c.resolve k q).plan? other = if k = other then q else c.plan? other := by
  simp only [resolve, unfilled, Bool.false_eq_true, if_false, plan?, Entries.get?_insert]
  split <;> rfl

theorem keys_resolve (taken : c.isTaken k = true) (q : Option (Plan Link)) :
    Entries.keys (c.resolve k q).slots = Entries.keys c.slots := by
  unfold resolve
  split
  · rfl
  · rw [Entries.keys_insert, if_pos (isTaken_iff.mp taken)]

theorem isTaken_resolve (taken : c.isTaken k = true) (q : Option (Plan Link)) :
    (c.resolve k q).isTaken other = c.isTaken other := by
  rw [Bool.eq_iff_iff, isTaken_iff, isTaken_iff, keys_resolve taken]

theorem size_eq : c.size = (Entries.keys c.slots).length := by simp [size, Entries.keys]

theorem keys_take : Entries.keys (c.take k).slots = Entries.keys c.slots ++ [k] := by
  simp [take, Entries.keys]

theorem size_take : (c.take k).size = c.size + 1 := by simp [size, take]

theorem size_resolve (taken : c.isTaken k = true) (q : Option (Plan Link)) :
    (c.resolve k q).size = c.size := by
  rw [size_eq, size_eq, keys_resolve taken]

theorem compilations_resolve (q : Option (Plan Link)) :
    (c.resolve k q).compilations = c.compilations := by
  unfold resolve
  split <;> rfl

/-- What is taken stays taken, and what is filled keeps its plan. -/
structure Extends (c after : Cache) : Prop where
  taken : ∀ k, c.isTaken k = true → after.isTaken k = true
  kept : ∀ k p, c.plan? k = some p → after.plan? k = some p

namespace Extends

theorem refl (c : Cache) : c.Extends c := ⟨fun _ h => h, fun _ _ h => h⟩

theorem trans {a b c : Cache} (first : a.Extends b) (second : b.Extends c) : a.Extends c :=
  ⟨fun k h => second.taken k (first.taken k h), fun k p h => second.kept k p (first.kept k p h)⟩

theorem resolved {after : Cache} (e : c.Extends after) (h : c.isResolved k = true) :
    after.isResolved k = true := by
  obtain ⟨p, filled⟩ := isResolved_iff.mp h
  exact isResolved_iff.mpr ⟨p, e.kept k p filled⟩

theorem take (c : Cache) (k : Key) : c.Extends (c.take k) :=
  ⟨fun other h => by rw [isTaken_take, h, Bool.true_or], fun other p h => by rw [plan?_take, h]⟩

theorem count (c : Cache) : c.Extends c.count := ⟨fun _ h => h, fun _ _ h => h⟩

theorem resolve (c : Cache) (k : Key) (q : Option (Plan Link)) : c.Extends (c.resolve k q) := by
  by_cases filled : c.isResolved k = true
  · rw [Cache.resolve, if_pos filled]
    exact refl c
  · have unfilled : c.isResolved k = false := by simpa using filled
    constructor
    · intro other h
      rw [Cache.resolve, if_neg filled]
      refine isTaken_iff.mpr ?_
      rw [Entries.keys_insert]
      split
      · exact isTaken_iff.mp h
      · exact List.mem_append_left _ (isTaken_iff.mp h)
    · intro other p h
      rw [plan?_resolve unfilled, if_neg, h]
      intro same
      subst other
      exact filled (isResolved_iff.mpr ⟨p, h⟩)

end Extends

/-- A link that was handed out: behind it there is at least a slot, and a filled one if it is
strong. -/
def Holds (c : Cache) : Link → Prop
  | .strong k => c.isResolved k = true
  | .weak k => c.isTaken k = true

theorem Holds.taken {l : Link} (h : c.Holds l) : c.isTaken l.key = true := by
  cases l with
  | strong k => exact isTaken_of_isResolved h
  | weak k => exact h

theorem Holds.mono {after : Cache} {l : Link} (h : c.Holds l) (e : c.Extends after) :
    after.Holds l := by
  cases l with
  | strong k => exact e.resolved h
  | weak k => exact e.taken k h

/-- A filled slot has the plan of its key, and its links were handed out. -/
def Faithful (s : Spec) (c : Cache) : Prop :=
  ∀ k p, c.plan? k = some p → p.map Link.key = s.plan k ∧ ∀ l ∈ p.links, c.Holds l

theorem Faithful.edge_taken {s : Spec} (h : c.Faithful s) {next : Key}
    (filled : c.isResolved k = true) (edge : s.Edge k next) : c.isTaken next = true := by
  obtain ⟨p, at_k⟩ := isResolved_iff.mp filled
  obtain ⟨same, held⟩ := h k p at_k
  have needed : next ∈ p.links.map Link.key := by
    rw [← links_map, same]
    exact Spec.mem_links_iff.mpr edge
  obtain ⟨l, member, rfl⟩ := List.mem_map.mp needed
  exact (held l member).taken

theorem empty_faithful (s : Spec) : Cache.empty.Faithful s := by
  intro k p h
  cases h

end ApiPayload.Cache
