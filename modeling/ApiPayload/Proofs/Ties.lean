import ApiPayload.Proofs.Requests

/-
What a worker leaves behind that had the cache to itself. A link is weak only where the schema that
it leads to needs, in the end, the schema that it stands in. Strong links lead to plans that were
there before, so they never come round. Workers that share a cache keep only the second of these.
-/
namespace ApiPayload

open Relation (ReflTransGen TransGen)

variable {s : Spec} {wanted : Key → Prop} {c after : Cache} {w next : Worker} {k : Key}

theorem links_of_relink {p : Plan Key} {ls : List Link} {q : Plan Link}
    (complete : p.links = ls.map Link.key) (filled : p.relink ls = some q) : q.links = ls := by
  obtain ⟨other, same, _, links⟩ := relink_exact complete
  obtain rfl := Option.some.inj (filled.symm.trans same)
  exact links

namespace Cache

/-- The plan of the outer key holds the plan of the inner one. -/
def HeldBy (c : Cache) (inner outer : Key) : Prop :=
  ∃ p, c.plan? outer = some p ∧ Link.strong inner ∈ p.links

structure Orderly (s : Spec) (c : Cache) : Prop where
  round : ∀ outer p inner, c.plan? outer = some p → Link.weak inner ∈ p.links →
    ReflTransGen s.Edge inner outer
  founded : WellFounded c.HeldBy

theorem empty_orderly (s : Spec) : Cache.empty.Orderly s where
  round outer p inner filled := by cases filled
  founded := by
    refine ⟨fun outer => ⟨outer, fun inner held => ?_⟩⟩
    obtain ⟨p, filled, _⟩ := held
    cases filled

theorem Orderly.congr (h : c.Orderly s) (same : ∀ k, after.plan? k = c.plan? k) :
    after.Orderly s where
  round outer p inner filled := h.round outer p inner ((same outer).symm.trans filled)
  founded := by
    refine Subrelation.wf (fun held => ?_) h.founded
    obtain ⟨p, filled, member⟩ := held
    exact ⟨p, (same _).symm.trans filled, member⟩

/-- A new plan that holds only plans which are there already comes after all of them. -/
theorem founded_fill (founded : WellFounded c.HeldBy) (faithful : c.Faithful s) {p : Plan Link}
    (filled : ∀ other, after.plan? other = if k = other then some p else c.plan? other)
    (unfilled : c.isResolved k = false)
    (ready : ∀ inner, Link.strong inner ∈ p.links → c.isResolved inner = true) :
    WellFounded after.HeldBy := by
  have kept : ∀ other, k ≠ other → after.plan? other = c.plan? other := by
    intro other differs
    rw [filled, if_neg differs]
  have old : ∀ outer, c.isResolved outer = true → Acc after.HeldBy outer := by
    intro outer
    induction outer using founded.induction with
    | _ outer ih =>
      intro resolved
      refine ⟨outer, fun inner held => ?_⟩
      obtain ⟨q, at_outer, member⟩ := held
      have differs : k ≠ outer := by
        rintro rfl
        rw [unfilled] at resolved
        cases resolved
      rw [kept outer differs] at at_outer
      exact ih inner ⟨q, at_outer, member⟩ ((faithful outer q at_outer).2 _ member)
  refine ⟨fun outer => ⟨outer, fun inner held => ?_⟩⟩
  obtain ⟨q, at_outer, member⟩ := held
  rw [filled] at at_outer
  split at at_outer
  · obtain rfl := Option.some.inj at_outer
    exact old inner (ready inner member)
  · exact old inner ((faithful outer q at_outer).2 _ member)

end Cache

namespace Worker

theorem Stacked.reaches {fs : List Frame} (h : Stacked s (some k) fs) {other : Key}
    (below : other ∈ fs.map (·.key)) : ReflTransGen s.Edge other k := by
  induction fs generalizing k with
  | nil => cases below
  | cons f rest ih =>
    obtain ⟨same, all, stacked⟩ := h
    have edge : s.Edge f.key k := by
      refine Spec.mem_links_iff.mp ?_
      rw [← same, all]
      simp
    rcases List.mem_cons.mp below with rfl | below
    · exact .single edge
    · exact (ih stacked below).tail edge

/-- The weak links that a worker has at hand lead back to its frames. -/
structure Tied (s : Spec) (w : Worker) : Prop where
  linked : ∀ f ∈ w.frames, ∀ inner, Link.weak inner ∈ f.links → ReflTransGen s.Edge inner f.key
  answered : ∀ inner, w.phase = .answer (.weak inner) → inner ∈ w.frames.map (·.key)

theorem start_tied (s : Spec) (k : Key) : (start k).Tied s where
  linked f member := by cases member
  answered inner phase := by cases phase

/-- Open slots have to be the worker's own, or a weak link could lead anywhere. -/
theorem Move.tied (m : Move s c w after next) (sound : w.Sound s c)
    (alone : ∀ k, c.isOpen k = true → k ∈ w.owned) (h : w.Tied s) : next.Tied s := by
  cases m with
  | weak unfilled =>
    refine ⟨h.linked, fun inner phase => ?_⟩
    cases phase
    exact alone _ (Cache.isOpen_iff.mpr ⟨sound.looked _ rfl, unfilled⟩)
  | begin =>
    refine ⟨fun f member inner held => ?_, by simp⟩
    rcases List.mem_cons.mp member with rfl | below
    · cases held
    · exact h.linked f below inner held
  | request =>
    refine ⟨fun f member inner held => ?_, by simp⟩
    rcases List.mem_cons.mp member with rfl | below
    · exact h.linked _ List.mem_cons_self inner held
    · exact h.linked f (List.mem_cons_of_mem _ below) inner held
  | fill => exact ⟨fun f member => h.linked f (List.mem_cons_of_mem _ member), by simp⟩
  | attach =>
    refine ⟨fun f member inner held => ?_, by simp⟩
    rcases List.mem_cons.mp member with rfl | below
    · rcases List.mem_append.mp held with old | new
      · exact h.linked _ List.mem_cons_self inner old
      · obtain rfl := List.mem_singleton.mp new
        rcases List.mem_cons.mp (h.answered inner rfl) with rfl | lower
        · exact .refl
        · exact sound.stacked.2.2.reaches lower
    · exact h.linked f (List.mem_cons_of_mem _ below) inner held
  | idle | finished => exact h
  | _ => exact ⟨h.linked, by simp⟩

theorem Move.orderly (m : Move s c w after next) (sound : w.Sound s c)
    (held : ∀ k ∈ w.owned, c.isOpen k = true) (faithful : c.Faithful s) (tied : w.Tied s)
    (h : c.Orderly s) : after.Orderly s := by
  cases m with
  | take => exact h.congr fun _ => Cache.plan?_take
  | begin => exact h.congr fun _ => rfl
  | @fill fs key p ls =>
    obtain ⟨q, filled, _, links⟩ := sound.fills
    obtain ⟨_, all, _⟩ := sound.stacked
    have same : q.links = ls := links_of_relink (by simpa [pending] using all) filled
    have unfilled := (Cache.isOpen_iff.mp (held key List.mem_cons_self)).2
    have plans : ∀ other, (c.resolve key (p.relink ls)).plan? other =
        if key = other then some q else c.plan? other := by
      intro other
      rw [Cache.plan?_resolve unfilled, filled]
    refine ⟨fun outer p inner at_outer member => ?_, ?_⟩
    · rw [plans] at at_outer
      split at at_outer
      · rename_i eq
        obtain rfl := Option.some.inj at_outer
        subst outer
        rw [same] at member
        exact tied.linked _ List.mem_cons_self inner member
      · exact h.round outer p inner at_outer member
    · exact Cache.founded_fill h.founded faithful plans unfilled fun inner => links (.strong inner)
  | _ => exact h

end Worker

/-- A property of a cache and its only worker that each step keeps holds until the answer is there. -/
theorem Workshop.run_keeps {keeps : Cache → Worker → Prop}
    (each : ∀ c w, Workshop s wanted c [w] → keeps c w → keeps (w.step s c).1 (w.step s c).2)
    (h : Workshop s wanted c [w]) (start : keeps c w) (fuel : Nat) :
    ∃ last, (w.run s fuel c).2 = last.answer? ∧ keeps (w.run s fuel c).1 last := by
  induction fuel generalizing c w with
  | zero => exact ⟨w, rfl, start⟩
  | succ fuel ih =>
    cases answer : w.answer? with
    | some l =>
      refine ⟨w, ?_, ?_⟩
      · simp only [Worker.run, answer]
      · simpa only [Worker.run, answer] using start
    | none =>
      simp only [Worker.run, answer]
      exact ih (h.step [] []) (each c w h start)

theorem Workshop.step_orderly (h : Workshop s wanted c [w]) (kept : c.Orderly s ∧ w.Tied s) :
    (w.step s c).1.Orderly s ∧ (w.step s c).2.Tied s := by
  obtain ⟨orderly, tied⟩ := kept
  have m := w.step_move s c
  have sound := h.sound w (List.mem_singleton.mpr rfl)
  have held : ∀ k ∈ w.owned, c.isOpen k = true :=
    fun k => h.isOpen_of_owned (List.mem_singleton.mpr rfl)
  have alone : ∀ k, c.isOpen k = true → k ∈ w.owned := by
    intro k opened
    obtain ⟨v, member, mine⟩ := h.owner_of_isOpen opened
    rwa [List.mem_singleton.mp member] at mine
  exact ⟨m.orderly sound held h.faithful tied orderly, m.tied sound alone tied⟩

/-- What is asked for on top has nothing below it to come round to. -/
theorem Settled.prepare_orderly (h : Settled s wanted c) (orderly : c.Orderly s) (id : Schema.Id)
    (required : Bool) : (s.prepare c id required).1.Orderly s ∧
      (s.prepare c id required).2 = .strong (s.key id required) := by
  obtain ⟨after, l, prepared, ends, _, _, _, same⟩ := h.prepare id required
  have wider : Workshop s (fun k => wanted k ∨ k = s.key id required) c [] :=
    h.shop.widen fun k => .inl
  have hired := wider.hire [] [] (Spec.reached_root (.inr rfl))
  obtain ⟨last, answer, kept, tied⟩ := hired.run_keeps (fun c w shop => shop.step_orderly)
    ⟨orderly, Worker.start_tied s _⟩ s.effort
  rw [ends s.effort (Nat.le_refl _)] at answer kept
  rw [prepared]
  refine ⟨kept, ?_⟩
  obtain rfl := Worker.eq_of_answer answer.symm
  cases l with
  | strong k => exact congrArg Link.strong same
  | weak k => cases tied.answered k rfl

end ApiPayload
