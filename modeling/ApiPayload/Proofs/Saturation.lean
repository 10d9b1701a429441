import Mathlib.Data.List.Basic

/-
Recursions in rounds. A round settles some of finitely many states by what the rounds before have settled. A
round that settles no further state is the last to settle any, so what is open after as many rounds as there are
states stays open.
-/
namespace ApiPayload

variable {σ β : Type} {f : Nat → σ → Option β} {S : List σ} {s : σ} {b : β} {m n : Nat}

/-- On some states, a second function settles all that the first settles, and alike. -/
def Below (S : List σ) (f g : σ → Option β) : Prop := ∀ s ∈ S, ∀ b, f s = some b → g s = some b

theorem Below.refl (S : List σ) (f : σ → Option β) : Below S f f := fun _ _ _ settled => settled

theorem Below.trans {f g h : σ → Option β} (first : Below S f g) (later : Below S g h) : Below S f h :=
  fun s member b settled => later s member b (first s member b settled)

theorem Below.isSome {f g : σ → Option β} (h : Below S f g) (member : s ∈ S) (settled : (f s).isSome = true) :
    (g s).isSome = true := by
  obtain ⟨b, settled⟩ := Option.isSome_iff_exists.mp settled
  rw [h s member b settled]
  rfl

/-- Of two properties of the members of a list, the weaker holds more often or is no weaker. -/
theorem countP_lt_or_imp {p q : σ → Bool} (weaker : ∀ s ∈ S, p s = true → q s = true) :
    S.countP p < S.countP q ∨ ∀ s ∈ S, q s = true → p s = true := by
  induction S with
  | nil => exact .inr fun _ none => nomatch none
  | cons s rest ih =>
    obtain ⟨here, later⟩ := List.forall_mem_cons.mp weaker
    rw [List.countP_cons, List.countP_cons, List.forall_mem_cons]
    have grows := List.countP_mono_left later
    rcases ih later with more | same
    · have own : (if p s = true then 1 else 0) ≤ if q s = true then 1 else 0 := by
        split
        · rename_i holds
          exact Nat.le_of_eq (if_pos (here holds)).symm
        · exact Nat.zero_le _
      exact .inl (by omega)
    · cases own : p s with
      | true => exact .inr ⟨fun _ => rfl, same⟩
      | false =>
        cases other : q s with
        | true => exact .inl (by simp; omega)
        | false => exact .inr ⟨id, same⟩

/-- Nothing is settled before the first round, and a round settles no less if it starts from more. -/
structure Rounds (f : Nat → σ → Option β) (S : List σ) : Prop where
  start : ∀ s ∈ S, f 0 s = none
  round : ∀ m n, Below S (f m) (f n) → Below S (f (m + 1)) (f (n + 1))

namespace Rounds
variable (h : Rounds f S)
include h

theorem next (n : Nat) : Below S (f n) (f (n + 1)) := by
  induction n with
  | zero => exact fun s member b settled => nomatch (h.start s member).symm.trans settled
  | succ n ih => exact h.round n (n + 1) ih

/-- What is settled stays settled. -/
theorem below (le : m ≤ n) : Below S (f m) (f n) := by
  induction le with
  | refl => exact .refl S _
  | step _ ih => exact ih.trans (h.next _)

/-- A round without a new state is the last. -/
theorem below_idle (idle : Below S (f (m + 1)) (f m)) (le : m ≤ n) : Below S (f n) (f m) := by
  induction le with
  | refl => exact .refl S _
  | step _ ih => exact (h.round _ m ih).trans idle

/-- A round settles a further state or none. -/
theorem grows_or_idle (n : Nat) :
    (S.countP fun s => (f n s).isSome) < (S.countP fun s => (f (n + 1) s).isSome) ∨ Below S (f (n + 1)) (f n) := by
  refine (countP_lt_or_imp fun s member => (h.next n).isSome member).imp_right fun same s member b settled => ?_
  have before := same s member (by rw [settled]; rfl)
  obtain ⟨c, before⟩ := Option.isSome_iff_exists.mp before
  rw [← settled, h.next n s member c before, before]

theorem idle_or_many (n : Nat) :
    (∃ m ≤ n, Below S (f (m + 1)) (f m)) ∨ n ≤ S.countP fun s => (f n s).isSome := by
  induction n with
  | zero => exact .inr (Nat.zero_le _)
  | succ n ih =>
    rcases ih with ⟨m, le, idle⟩ | many
    · exact .inl ⟨m, Nat.le_succ_of_le le, idle⟩
    · rcases h.grows_or_idle n with more | idle
      · exact .inr (Nat.lt_of_le_of_lt many more)
      · exact .inl ⟨n, Nat.le_succ n, idle⟩

/-- With as many rounds as there are states, all is settled that ever is. -/
theorem below_length (n : Nat) : Below S (f n) (f S.length) := by
  intro s member b settled
  rcases h.idle_or_many S.length with ⟨m, le, idle⟩ | all
  · refine h.below le s member b ?_
    rcases Nat.le_total m n with after | before
    · exact h.below_idle idle after s member b settled
    · exact h.below before s member b settled
  · have every := List.countP_eq_length.mp (Nat.le_antisymm List.countP_le_length all) s member
    obtain ⟨c, done⟩ := Option.isSome_iff_exists.mp every
    -- both are what a later round has
    have later := h.below (Nat.le_max_left n S.length) s member b settled
    rw [h.below (Nat.le_max_right n S.length) s member c done] at later
    rw [done, later]

/-- More rounds than there are states change nothing. -/
theorem eq_length (member : s ∈ S) (enough : S.length ≤ n) : f n s = f S.length s :=
  Option.ext fun b => ⟨h.below_length n s member b, h.below enough s member b⟩

/-- What is open after as many rounds as there are states stays open. -/
theorem never (member : s ∈ S) (pending : f S.length s = none) (n : Nat) : f n s = none :=
  Option.eq_none_iff_forall_ne_some.mpr fun b settled =>
    nomatch pending.symm.trans (h.below_length n s member b settled)

end Rounds
end ApiPayload
