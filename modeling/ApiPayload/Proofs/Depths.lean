import ApiPayload.Proofs.Merging

/-
Depths of recursion. A run that is not cut off ends in the same way however much deeper it may go, and
where the limit exceeds the places that reading can come to no run is cut off.
-/
namespace ApiPayload.Schema

open Spec

section Sooner
variable {α β : Type} {x y : Builder α}

/-- The one run ends as the other, unless it is cut off before. -/
def Sooner (x y : Builder α) : Prop :=
  ∀ a, x a = y a ∨ ∃ e a', x a = .error e a' ∧ cutOff e

theorem cutOff_endless (p : Pointer) : cutOff (.invalidSchema p .endless) := trivial

theorem Sooner.refl (x : Builder α) : Sooner x x := fun _ => .inl rfl

theorem Sooner.cut {e : SpecError} (cut : cutOff e) (y : Builder α) : Sooner (throw e) y :=
  fun a => .inr ⟨e, a, rfl, cut⟩

theorem Sooner.bind {f g : α → Builder β} (first : Sooner x y) (rest : ∀ v, Sooner (f v) (g v)) :
    Sooner (x >>= f) (y >>= g) := by
  intro a
  rcases first a with same | ⟨e, a', failed, cut⟩
  · cases ended : y a with
    | error e a' =>
      rw [Builder.bind_error (same.trans ended), Builder.bind_error ended]
      exact .inl rfl
    | ok v a' =>
      rw [Builder.bind_ok (same.trans ended), Builder.bind_ok ended]
      exact rest v a'
  · exact .inr ⟨e, a', Builder.bind_error failed f, cut⟩

theorem Sooner.foldlM {f g : β → α → Builder β} (each : ∀ acc x, Sooner (f acc x) (g acc x))
    (xs : List α) (acc : β) : Sooner (xs.foldlM f acc) (xs.foldlM g acc) := by
  induction xs generalizing acc with
  | nil => exact .refl _
  | cons x rest ih =>
    rw [List.foldlM_cons, List.foldlM_cons]
    exact (each acc x).bind ih

theorem Sooner.forM {f g : α → Builder PUnit} (each : ∀ x, Sooner (f x) (g x)) (xs : List α) :
    Sooner (xs.forM f) (xs.forM g) := by
  induction xs with
  | nil => exact .refl _
  | cons x rest ih => exact (each x).bind fun _ => ih

end Sooner

section Limits
variable {document : Json} {naming : Naming} {limit limit' fuel fuel' : Nat} {source p q owner : Pointer}
  {ask ask' : Pointer → Pointer → Builder Id}

theorem follow_sooner (deeper : fuel ≤ fuel') {seen : List Pointer} :
    follow document source fuel seen p = follow document source fuel' seen p ∨
      ∃ e, follow document source fuel seen p = .error e ∧ cutOff e := by
  induction fuel generalizing fuel' p seen with
  | zero => exact .inr ⟨_, rfl, trivial⟩
  | succ fuel ih =>
    obtain ⟨fuel', rfl⟩ := Nat.exists_eq_succ_of_ne_zero (Nat.ne_of_gt (Nat.zero_lt_of_lt deeper))
    rw [follow, follow]
    split
    · exact .inl rfl
    · split
      · exact .inl rfl
      · cases target p _ with
        | error e => exact .inl rfl
        | ok next => exact ih (Nat.le_of_succ_le_succ deeper)

theorem partAt_sooner (deeper : limit ≤ limit') (i : Nat) (part : Json) :
    Sooner (Builder.ofExcept (partAt document limit p i part))
      (Builder.ofExcept (partAt document limit' p i part)) := by
  unfold partAt
  split
  · cases target p _ with
    | error e => exact .refl _
    | ok aim =>
      show Sooner (Builder.ofExcept (follow document p limit [] aim))
        (Builder.ofExcept (follow document p limit' [] aim))
      rcases follow_sooner deeper with same | ⟨e, failed, cut⟩
      · rw [same]
        exact .refl _
      · rw [failed]
        exact .cut cut _
  · exact .refl _

theorem merge_sooner (deeper : limit ≤ limit') (asks : ∀ source p, Sooner (ask source p) (ask' source p))
    (more : fuel ≤ fuel') (ms : Members) (acc : Merged) :
    Sooner (merge document limit ask owner fuel ms q acc)
      (merge document limit' ask' owner fuel' ms q acc) := by
  induction fuel generalizing fuel' ms q acc with
  | zero => exact .cut (cutOff_endless q) _
  | succ fuel ih =>
    obtain ⟨fuel', rfl⟩ := Nat.exists_eq_succ_of_ne_zero (Nat.ne_of_gt (Nat.zero_lt_of_lt more))
    rw [merge_succ, merge_succ]
    split
    · exact .refl _
    · refine (Sooner.refl _).bind fun _ => (Sooner.foldlM (fun acc part => ?_) _ _).bind fun acc =>
        (Sooner.foldlM (fun acc name => (asks _ _).bind fun _ => .refl _) _ _).bind fun _ => .refl _
      refine (partAt_sooner deeper part.2 part.1).bind fun place => ?_
      split
      · exact ih (Nat.le_of_succ_le_succ more) _ _
      · exact .refl _

theorem readNode_sooner (deeper : limit ≤ limit')
    (asks : ∀ source p, Sooner (ask source p) (ask' source p)) (raw : Json) :
    Sooner (readNode document naming limit ask p raw) (readNode document naming limit' ask' p raw) := by
  unfold readNode
  split
  · split
    · exact (Sooner.refl _).bind fun _ => (asks _ _).bind fun _ => .refl _
    · split
      · exact .refl _
      · exact (merge_sooner deeper asks deeper _ _).bind fun _ => .refl _
      · split
        · exact (asks _ _).bind fun _ => .refl _
        · exact .refl _
      · exact .refl _
      · exact .refl _
  · exact .refl _
  · exact .refl _

theorem request_sooner (deeper : limit ≤ limit') (more : fuel ≤ fuel') :
    Sooner (request document naming limit fuel source p) (request document naming limit' fuel' source p) := by
  induction fuel generalizing fuel' source p with
  | zero => exact .cut (cutOff_endless p) _
  | succ fuel ih =>
    obtain ⟨fuel', rfl⟩ := Nat.exists_eq_succ_of_ne_zero (Nat.ne_of_gt (Nat.zero_lt_of_lt more))
    unfold request
    refine (Sooner.refl _).bind fun _ => (Sooner.refl _).bind fun a => ?_
    split
    · exact .refl _
    · split
      · exact .refl _
      · exact (Sooner.refl _).bind fun _ => (Sooner.refl _).bind fun _ =>
          (readNode_sooner deeper (fun _ _ => ih (Nat.le_of_succ_le_succ more)) _).bind fun _ => .refl _

theorem assemble_sooner (naming : Naming) (deeper : limit ≤ limit') :
    Sooner (assemble document naming limit) (assemble document naming limit') := by
  refine Sooner.forM (fun p => ?_) _
  exact (request_sooner deeper deeper).bind fun _ => .refl (pure ())

theorem assemble_error {e : SpecError} {a : Arena}
    (failed : assemble document naming (placeLimit document) .empty = .error e a) :
    numbering document = .error e := by
  have ends := assemble_ends naming (Nat.le_refl (placeLimit document))
  rw [failed] at ends
  exact ends.eq_error

theorem assemble_not_cutOff {e : SpecError} {a : Arena}
    (failed : assemble document naming (placeLimit document) .empty = .error e a) : ¬ cutOff e := by
  obtain ⟨_, _, _, _, fault⟩ := numbering_error (assemble_error failed)
  exact fault.not_cutOff

/-- A limit that exceeds the places that reading can come to is no limit. -/
theorem assemble_deeper (deep : placeLimit document ≤ limit) :
    assemble document naming limit .empty = assemble document naming (placeLimit document) .empty := by
  rcases assemble_sooner naming deep .empty with same | ⟨e, a, failed, cut⟩
  · exact same.symm
  · exact absurd cut (assemble_not_cutOff failed)

end Limits
end ApiPayload.Schema
