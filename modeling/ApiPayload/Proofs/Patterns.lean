import ApiPayload.Validation.Pattern

/-
What patterns match. The places where a pattern is run to are just those where one of its matches ends. A loop
only gets further with rounds that match something, so as many rounds as there are characters reach every place.
-/
namespace ApiPayload.Validation.Pattern

/-- So many steps of a relation between places. -/
def Repeats (R : Nat → Nat → Prop) : Nat → Nat → Nat → Prop
  | 0, i, j => i = j
  | n + 1, i, j => ∃ m, R i m ∧ Repeats R n m j

section Repeats
variable {R S : Nat → Nat → Prop} {m n i j bound : Nat}

theorem repeats_add : Repeats R (m + n) i j ↔ ∃ k, Repeats R m i k ∧ Repeats R n k j := by
  induction m generalizing i with
  | zero => simp [Repeats]
  | succ m ih =>
    rw [Nat.succ_add]
    simp only [Repeats, ih]
    constructor
    · rintro ⟨l, first, k, front, back⟩
      exact ⟨k, ⟨l, first, front⟩, back⟩
    · rintro ⟨k, ⟨l, first, front⟩, back⟩
      exact ⟨l, first, k, front, back⟩

/-- Steps go forth and stay within a bound. -/
def Forth (bound : Nat) (R : Nat → Nat → Prop) : Prop := ∀ i ≤ bound, ∀ j, R i j → i ≤ j ∧ j ≤ bound

theorem Forth.repeats (forth : Forth bound R) : Forth bound (Repeats R n) := by
  induction n with
  | zero =>
    rintro i inside _ rfl
    exact ⟨Nat.le_refl i, inside⟩
  | succ n ih =>
    rintro i inside j ⟨m, first, rest⟩
    have near := forth i inside m first
    have far := ih m near.2 j rest
    exact ⟨Nat.le_trans near.1 far.1, far.2⟩

/-- Steps that go nowhere can be left out, and then there are no more of them than places. -/
theorem Forth.shorten (forth : Forth bound R) (inside : i ≤ bound) (steps : Repeats R n i j) :
    ∃ m ≤ n, m ≤ j - i ∧ Repeats R m i j := by
  induction n generalizing i with
  | zero => exact ⟨0, Nat.le_refl 0, Nat.zero_le _, steps⟩
  | succ n ih =>
    obtain ⟨k, first, rest⟩ := steps
    have near := forth i inside k first
    have far := forth.repeats k near.2 j rest
    obtain ⟨m, fewer, few, rest⟩ := ih near.2 rest
    by_cases idle : i = k
    · subst idle
      exact ⟨m, Nat.le_succ_of_le fewer, few, rest⟩
    · exact ⟨m + 1, Nat.succ_le_succ fewer, by omega, k, first, rest⟩

/-- Relations that agree within the bound lead to the same places. -/
theorem Forth.repeats_congr (forth : Forth bound S) (same : ∀ i ≤ bound, ∀ j, R i j ↔ S i j) (inside : i ≤ bound) : Repeats R n i j ↔ Repeats S n i j := by
  induction n generalizing i with
  | zero => exact Iff.rfl
  | succ n ih =>
    refine exists_congr fun m => ?_
    rw [same i inside m]
    exact and_congr_right fun first => ih (forth i inside m first).2

end Repeats

section Steps
variable {step : Nat → List Nat} {found : List Nat} {n j : Nat}

theorem mem_union {a b : List Nat} : j ∈ union a b ↔ j ∈ a ∨ j ∈ b := by
  by_cases here : j ∈ a <;> simp [union, here]

theorem mem_spread : j ∈ spread step found ↔ ∃ i ∈ found, j ∈ step i := by
  have gathered : ∀ acc, j ∈ found.foldl (fun acc i => union acc (step i)) acc ↔
      j ∈ acc ∨ ∃ i ∈ found, j ∈ step i := by
    induction found with
    | nil => simp
    | cons i rest ih =>
      intro acc
      rw [List.foldl_cons, ih, mem_union, or_assoc]
      simp
  rw [spread, gathered, or_iff_right List.not_mem_nil]

theorem mem_exactly : j ∈ exactly step n found ↔ ∃ i ∈ found, Repeats (fun i j => j ∈ step i) n i j := by
  induction n generalizing found with
  | zero => simp [exactly, Repeats]
  | succ n ih =>
    rw [exactly, ih]
    simp only [mem_spread, Repeats]
    constructor
    · rintro ⟨m, ⟨i, member, first⟩, rest⟩
      exact ⟨i, member, m, first, rest⟩
    · rintro ⟨i, member, m, first, rest⟩
      exact ⟨m, ⟨i, member, first⟩, rest⟩

theorem mem_within :
    j ∈ within step n found ↔ ∃ i ∈ found, ∃ m ≤ n, Repeats (fun i j => j ∈ step i) m i j := by
  induction n generalizing found with
  | zero => simp [within, Repeats]
  | succ n ih =>
    rw [within, ih]
    constructor
    · rintro ⟨k, member, m, few, steps⟩
      rcases mem_union.mp member with member | member
      · exact ⟨k, member, m, Nat.le_succ_of_le few, steps⟩
      · obtain ⟨i, member, first⟩ := mem_spread.mp member
        exact ⟨i, member, m + 1, Nat.succ_le_succ few, k, first, steps⟩
    · rintro ⟨i, member, m, few, steps⟩
      cases m with
      | zero => exact ⟨i, mem_union.mpr (.inl member), 0, Nat.zero_le n, steps⟩
      | succ m =>
        obtain ⟨k, first, rest⟩ := steps
        exact ⟨k, mem_union.mpr (.inr (mem_spread.mpr ⟨i, member, first⟩)), m, Nat.le_of_succ_le_succ few, rest⟩

end Steps

/-- A match from one place of a text to another. -/
def Matches (text : Array Char) : Pattern → Nat → Nat → Prop
  | empty, i, j => i = j
  | char k, i, j => j = i + 1 ∧ ∃ c, text[i]? = some c ∧ k.contains c.toNat = true
  | seq a b, i, j => ∃ m, Matches text a i m ∧ Matches text b m j
  | alt a b, i, j => Matches text a i j ∨ Matches text b i j
  | group _ p, i, j => Matches text p i j
  | loop p least more, i, j => ∃ n, (∀ m ∈ more, n ≤ m) ∧ Repeats (Matches text p) (least + n) i j
  | edge e, i, j => i = j ∧ e.holds text i = true
  | ahead wanted p, i, j => i = j ∧ (wanted = true ↔ ∃ m, Matches text p i m)
  | behind wanted p, i, j => i = j ∧ (wanted = true ↔ ∃ m ≤ i, Matches text p m i)

section Matches
variable {text : Array Char} {p a b : Pattern} {i j : Nat}

theorem forth_matches (text : Array Char) (p : Pattern) : Forth text.size (p.Matches text) := by
  induction p with
  | empty =>
    rintro i inside _ rfl
    exact ⟨Nat.le_refl i, inside⟩
  | char k =>
    rintro i _ _ ⟨rfl, c, there, _⟩
    obtain ⟨within, _⟩ := Array.getElem?_eq_some_iff.mp there
    exact ⟨Nat.le_succ i, within⟩
  | seq a b first second =>
    rintro i inside j ⟨m, front, back⟩
    have near := first i inside m front
    have far := second m near.2 j back
    exact ⟨Nat.le_trans near.1 far.1, far.2⟩
  | alt a b first second =>
    rintro i inside j (one | other)
    · exact first i inside j one
    · exact second i inside j other
  | group name p ih => exact ih
  | loop p least more ih =>
    rintro i inside j ⟨n, _, steps⟩
    exact ih.repeats i inside j steps
  | edge | ahead | behind =>
    rintro i inside _ ⟨rfl, _⟩
    exact ⟨Nat.le_refl i, inside⟩

theorem le_rounds {size n : Nat} {more : Option Nat} : n ≤ rounds size more ↔ (∀ m ∈ more, n ≤ m) ∧ n ≤ size := by
  cases more with
  | none => simp [rounds]
  | some m =>
    rw [rounds, Nat.le_min]
    simp

theorem mem_ends_loop {least : Nat} {more : Option Nat} (inside : i ≤ text.size)
    (ih : ∀ i ≤ text.size, ∀ j, j ∈ p.ends text i ↔ p.Matches text i j) :
    j ∈ (loop p least more).ends text i ↔ (loop p least more).Matches text i j := by
  have forth := forth_matches text p
  have same : ∀ {n i j}, i ≤ text.size →
      (Repeats (fun i j => j ∈ p.ends text i) n i j ↔ Repeats (p.Matches text) n i j) :=
    forth.repeats_congr ih
  rw [ends, mem_within]
  constructor
  · rintro ⟨k, member, n, few, steps⟩
    obtain ⟨_, here, front⟩ := mem_exactly.mp member
    obtain rfl := List.mem_singleton.mp here
    have front := (same inside).mp front
    have between := (forth.repeats _ inside k front).2
    exact ⟨n, (le_rounds.mp few).1, repeats_add.mpr ⟨k, front, (same between).mp steps⟩⟩
  · rintro ⟨n, few, steps⟩
    obtain ⟨k, front, back⟩ := repeats_add.mp steps
    have between := (forth.repeats i inside k front).2
    obtain ⟨m, fewer, short, back⟩ := forth.shorten between back
    have last := (forth.repeats k between j back).2
    refine ⟨k, mem_exactly.mpr ⟨i, List.mem_singleton_self i, (same inside).mpr front⟩, m, ?_, (same between).mpr back⟩
    exact le_rounds.mpr ⟨fun most allowed => Nat.le_trans fewer (few most allowed), by omega⟩

/-- A pattern is run to just the places where its matches end. -/
theorem mem_ends (text : Array Char) (p : Pattern) :
    ∀ i ≤ text.size, ∀ j, j ∈ p.ends text i ↔ p.Matches text i j := by
  induction p with
  | empty => simp [ends, Matches, eq_comm]
  | char k =>
    intro i _ j
    cases there : text[i]? with
    | none => simp [ends, Matches, there]
    | some c => by_cases fits : k.contains c.toNat = true <;> simp [ends, Matches, there, fits]
  | seq a b first second =>
    intro i inside j
    rw [ends, mem_spread]
    refine exists_congr fun m => ?_
    rw [first i inside m]
    exact and_congr_right fun front => second m (forth_matches text a i inside m front).2 j
  | alt a b first second =>
    intro i inside j
    rw [ends, mem_union, first i inside j, second i inside j]
    rfl
  | group name p ih => exact ih
  | loop p least more ih => exact fun i inside j => mem_ends_loop inside ih
  | edge e =>
    intro i _ j
    by_cases holds : e.holds text i = true <;> simp [ends, Matches, holds, eq_comm]
  | ahead wanted p ih =>
    intro i inside j
    have found : (p.ends text i).isEmpty = false ↔ ∃ m, p.Matches text i m := by
      simp only [List.isEmpty_eq_false_iff_exists_mem, ih i inside]
    rw [ends, Matches, ← found]
    cases (p.ends text i).isEmpty <;> cases wanted <;> simp [eq_comm]
  | behind wanted p ih =>
    intro i inside j
    have found : ((List.range (i + 1)).any fun j => i ∈ p.ends text j) = true ↔ ∃ m ≤ i, p.Matches text m i := by
      simp only [List.any_eq_true, List.mem_range, Nat.lt_succ_iff, decide_eq_true_eq]
      exact exists_congr fun m => and_congr_right fun before => ih m (Nat.le_trans before inside) i
    rw [ends, Matches, ← found]
    cases ((List.range (i + 1)).any fun j => i ∈ p.ends text j) <;> cases wanted <;> simp [eq_comm]

/-- A pattern occurs in a text that has a match anywhere. -/
theorem occursIn_iff {s : String} : p.occursIn s = true ↔
    ∃ i j, i ≤ s.toList.toArray.size ∧ p.Matches s.toList.toArray i j := by
  simp only [occursIn, List.any_eq_true, List.mem_range, Nat.lt_succ_iff, Bool.not_eq_true',
    List.isEmpty_eq_false_iff_exists_mem]
  refine exists_congr fun i => ?_
  constructor
  · rintro ⟨inside, j, member⟩
    exact ⟨j, inside, (mem_ends _ p i inside j).mp member⟩
  · rintro ⟨j, inside, there⟩
    exact ⟨inside, j, (mem_ends _ p i inside j).mpr there⟩

/-- What is left out where one pattern follows another matches nothing. -/
theorem matches_followedBy : (followedBy a b).Matches text i j ↔ (seq a b).Matches text i j := by
  unfold followedBy
  split <;> simp [Matches]

end Matches

end ApiPayload.Validation.Pattern
