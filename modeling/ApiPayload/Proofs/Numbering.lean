import ApiPayload.Schema.Spec

/-
Numbered fragments. All that a numbered fragment needs is there and numbered too, however numbering
came to it; so no fault is hidden below a node.
-/
namespace ApiPayload.Spec

open Schema

variable {document : Json} {order order' : List Pointer} {p : Pointer}

/-- A fragment is there, and so is everything that it needs. -/
def Provided (document : Json) (order : List Pointer) (p : Pointer) : Prop :=
  ∃ raw, p.find? document = some raw ∧ ∀ need ∈ needs document p raw, ∃ q, need = .ok q ∧ q ∈ order

theorem Provided.mono (h : Provided document order p) (more : ∀ q ∈ order, q ∈ order') :
    Provided document order' p := by
  obtain ⟨raw, found, provided⟩ := h
  refine ⟨raw, found, fun need member => ?_⟩
  obtain ⟨q, same, numbered⟩ := provided need member
  exact ⟨q, same, more q numbered⟩

/-- What numbering adds: fragments for which all is provided by the time it returns. -/
structure Extended (document : Json) (order order' : List Pointer) : Prop where
  kept : ∀ q ∈ order, q ∈ order'
  provided : ∀ q ∈ order', q ∈ order ∨ Provided document order' q

theorem Extended.refl (document : Json) (order : List Pointer) : Extended document order order :=
  ⟨fun _ h => h, fun _ h => .inl h⟩

theorem Extended.trans {order'' : List Pointer} (first : Extended document order order')
    (later : Extended document order' order'') : Extended document order order'' := by
  refine ⟨fun q h => later.kept q (first.kept q h), fun q h => ?_⟩
  rcases later.provided q h with h | h
  · rcases first.provided q h with h | h
    · exact .inl h
    · exact .inr (h.mono later.kept)
  · exact .inr h

theorem foldlM_extended {β : Type} {f : List Pointer → β → Except SpecError (List Pointer)}
    {P : β → List Pointer → Prop}
    (more : ∀ x order order', P x order → (∀ q ∈ order, q ∈ order') → P x order')
    (each : ∀ order x order', f order x = .ok order' → Extended document order order' ∧ P x order')
    {xs : List β} (h : xs.foldlM f order = .ok order') :
    Extended document order order' ∧ ∀ x ∈ xs, P x order' := by
  induction xs generalizing order with
  | nil =>
    rw [List.foldlM_nil] at h
    cases h
    exact ⟨.refl document _, fun x member => nomatch member⟩
  | cons x rest ih =>
    rw [List.foldlM_cons] at h
    cases step : f order x with
    | error e =>
      rw [step] at h
      cases h
    | ok between =>
      rw [step] at h
      obtain ⟨first, here⟩ := each order x between step
      obtain ⟨later, others⟩ := ih h
      refine ⟨first.trans later, fun y member => ?_⟩
      rcases List.mem_cons.mp member with rfl | member
      · exact more y between order' here later.kept
      · exact others y member

theorem number_extended {fuel : Nat} {source : Pointer}
    (h : number document fuel source order p = .ok order') :
    Extended document order order' ∧ p ∈ order' := by
  induction fuel generalizing source order order' p with
  | zero => cases h
  | succ fuel ih =>
    rw [number] at h
    split at h
    · rename_i known
      cases h
      exact ⟨.refl document order, known⟩
    · split at h
      · cases h
      · rename_i raw found
        have each : ∀ order need order',
            (do number document fuel p order (← need)) = .ok order' →
              Extended document order order' ∧ ∃ q, need = .ok q ∧ q ∈ order' := by
          intro order need order' step
          cases need with
          | error e => cases step
          | ok q =>
            obtain ⟨extended, numbered⟩ := ih step
            exact ⟨extended, q, rfl, numbered⟩
        have more : ∀ (need : Except SpecError Pointer) (order order' : List Pointer),
            (∃ q, need = .ok q ∧ q ∈ order) → (∀ q ∈ order, q ∈ order') →
              ∃ q, need = .ok q ∧ q ∈ order' := by
          rintro need order order' ⟨q, same, numbered⟩ kept
          exact ⟨q, same, kept q numbered⟩
        obtain ⟨below, met⟩ := foldlM_extended more each h
        refine ⟨⟨fun q h => below.kept q (List.mem_append_left _ h), fun q h => ?_⟩,
          below.kept p (List.mem_append_right _ (List.mem_singleton_self p))⟩
        rcases below.provided q h with h | h
        · rcases List.mem_append.mp h with h | h
          · exact .inl h
          · obtain rfl := List.mem_singleton.mp h
            exact .inr ⟨raw, found, met⟩
        · exact .inr h

/-- Numbering leaves nothing open. -/
theorem provided_of_numbered (h : numbering document = .ok order) (numbered : p ∈ order) :
    Provided document order p := by
  obtain ⟨extended, _⟩ := foldlM_extended (P := fun p order => p ∈ order)
    (fun p _ _ h kept => kept p h) (fun _ _ _ step => number_extended step) h
  rcases extended.provided p numbered with none | provided
  · cases none
  · exact provided

end ApiPayload.Spec
