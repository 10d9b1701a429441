import ApiPayload.Proofs.Workers

/-
What all workers at one cache keep between them, whoever of them takes the next step.
-/
namespace ApiPayload

open Cache (Faithful)

theorem forall_mem_middle {α : Type} {P : α → Prop} {before behind : List α} {a : α} :
    (∀ b ∈ before ++ a :: behind, P b) ↔ P a ∧ ∀ b ∈ before ++ behind, P b := by
  simp only [List.forall_mem_append, List.forall_mem_cons, and_left_comm]

/-- A key is open exactly if one worker owns it, and once. A slot is counted unless its worker is
about to count it. All that is taken or asked for is reached from a wanted key. -/
structure Workshop (s : Spec) (wanted : Key → Prop) (c : Cache) (ws : List Worker) : Prop where
  distinct : (Entries.keys c.slots).Nodup
  owned : ∀ k, (ws.flatMap Worker.owned).count k = (c.isOpen k).toNat
  faithful : c.Faithful s
  sound : ∀ w ∈ ws, w.Sound s c
  counted : c.compilations + ws.countP Worker.isCounting = c.size
  reached : ∀ k, c.isTaken k = true → s.Reached wanted k
  asked : ∀ w ∈ ws, ∀ k, w.pending = some k → s.Reached wanted k

variable {s : Spec} {wanted : Key → Prop} {c after : Cache} {w next : Worker}
  {ws : List Worker}

namespace Worker

theorem Move.distinct (m : Move s c w after next) (held : ∀ k ∈ w.owned, c.isOpen k = true)
    (h : (Entries.keys c.slots).Nodup) : (Entries.keys after.slots).Nodup := by
  cases m with
  | take free =>
    rw [Cache.keys_take]
    refine List.nodup_append.mpr ⟨h, by simp, ?_⟩
    rintro a old b new rfl
    rw [List.mem_singleton] at new
    subst a
    rw [Cache.isTaken_iff.mpr old] at free
    cases free
  | fill =>
    have taken := (Cache.isOpen_iff.mp (held _ List.mem_cons_self)).1
    rwa [Cache.keys_resolve taken]
  | _ => exact h

/-- A worker comes to own what it takes, and what it fills is no longer its own. -/
theorem Move.owned_count (m : Move s c w after next) (sound : w.Sound s c)
    (held : ∀ k ∈ w.owned, c.isOpen k = true) (k : Key) :
    next.owned.count k + (c.isOpen k).toNat = w.owned.count k + (after.isOpen k).toNat := by
  cases m with
  | @take fs key free =>
    have unfilled : c.isResolved key = false := by
      cases filled : c.isResolved key
      · rfl
      · rw [Cache.isTaken_of_isResolved filled] at free
        cases free
    have opened : ((c.take key).isOpen k).toNat =
        (if key = k then 1 else 0) + (c.isOpen k).toNat := by
      simp only [Cache.isOpen, Cache.isTaken_take, Cache.isResolved_take]
      by_cases same : key = k
      · subst k
        simp [free, unfilled]
      · simp [same]
    simp only [owned, List.count_cons, beq_iff_eq, opened]
    omega
  | @fill fs key p ls =>
    obtain ⟨q, filled, _, _⟩ := sound.fills
    obtain ⟨taken, unfilled⟩ := Cache.isOpen_iff.mp (held key List.mem_cons_self)
    have closed : (c.isOpen k).toNat = (if key = k then 1 else 0) +
        ((c.resolve key (p.relink ls)).isOpen k).toNat := by
      simp only [Cache.isOpen, Cache.isTaken_resolve taken, Cache.isResolved,
        Cache.plan?_resolve unfilled, filled]
      by_cases same : key = k
      · subst k
        have empty : (c.plan? key).isSome = false := unfilled
        simp [taken, empty]
      · simp [same]
    simp only [owned, List.map_cons, List.count_cons, beq_iff_eq, closed]
    omega
  | begin => rfl
  | _ => rfl

/-- A slot gets filled by nothing but the step that is about to fill it. -/
theorem Move.filled (m : Move s c w after next) (sound : w.Sound s c)
    (held : ∀ k ∈ w.owned, c.isOpen k = true) (k : Key) :
    (after.isResolved k).toNat = (c.isResolved k).toNat + w.filling?.toList.count k := by
  cases m with
  | take => rw [Cache.isResolved_take]; rfl
  | @fill fs key p ls =>
    obtain ⟨q, filled, _, _⟩ := sound.fills
    have unfilled := (Cache.isOpen_iff.mp (held key List.mem_cons_self)).2
    have own : filling? ⟨⟨key, p, [], ls⟩ :: fs, .work⟩ = some key := rfl
    rw [own, Cache.isResolved, Cache.plan?_resolve unfilled, filled]
    by_cases same : key = k
    · subst k
      simp [unfilled]
    · simp [same, Cache.isResolved]
  | begin => rfl
  | _ => rfl

theorem Move.counted (m : Move s c w after next) (held : ∀ k ∈ w.owned, c.isOpen k = true) :
    after.compilations + next.isCounting.toNat + c.size =
      c.compilations + w.isCounting.toNat + after.size := by
  cases m with
  | take free =>
    rw [Cache.size_take]
    change c.compilations + 1 + c.size = c.compilations + 0 + (c.size + 1)
    omega
  | begin =>
    change c.compilations + 1 + 0 + c.size = c.compilations + 1 + c.size
    omega
  | fill =>
    have taken := (Cache.isOpen_iff.mp (held _ List.mem_cons_self)).1
    rw [Cache.size_resolve taken, Cache.compilations_resolve]
    rfl
  | _ => rfl

theorem Move.faithful (m : Move s c w after next) (sound : w.Sound s c)
    (held : ∀ k ∈ w.owned, c.isOpen k = true) (h : c.Faithful s) : after.Faithful s := by
  have e := m.extends
  cases m with
  | take =>
    intro k p filled
    rw [Cache.plan?_take] at filled
    exact ⟨(h k p filled).1, fun l member => ((h k p filled).2 l member).mono e⟩
  | fill =>
    obtain ⟨q, filled, same, links⟩ := sound.fills
    have unfilled := (Cache.isOpen_iff.mp (held _ List.mem_cons_self)).2
    intro k p at_k
    rw [Cache.plan?_resolve unfilled] at at_k
    split at at_k
    · rename_i eq
      subst k
      obtain rfl : q = p := Option.some.inj (filled.symm.trans at_k)
      exact ⟨same, fun l member => (links l member).mono e⟩
    · exact ⟨(h k p at_k).1, fun l member => ((h k p at_k).2 l member).mono e⟩
  | begin =>
    intro k p filled
    exact ⟨(h k p filled).1, fun l member => ((h k p filled).2 l member).mono e⟩
  | _ => exact h

theorem Move.reached (m : Move s c w after next) (held : ∀ k ∈ w.owned, c.isOpen k = true)
    (h : ∀ k, c.isTaken k = true → s.Reached wanted k)
    (asked : ∀ k, w.pending = some k → s.Reached wanted k) (k : Key)
    (taken : after.isTaken k = true) : s.Reached wanted k := by
  cases m with
  | take =>
    rw [Cache.isTaken_take, Bool.or_eq_true, decide_eq_true_eq] at taken
    rcases taken with old | rfl
    · exact h k old
    · exact asked _ rfl
  | fill =>
    have old := (Cache.isOpen_iff.mp (held _ List.mem_cons_self)).1
    rw [Cache.isTaken_resolve old] at taken
    exact h k taken
  | _ => exact h k taken

theorem Move.asked (m : Move s c w after next) (sound : w.Sound s c)
    (held : ∀ k ∈ w.owned, c.isOpen k = true)
    (h : ∀ k, c.isTaken k = true → s.Reached wanted k)
    (asked : ∀ k, w.pending = some k → s.Reached wanted k) (k : Key)
    (pending : next.pending = some k) : s.Reached wanted k := by
  cases m with
  | @request fs key k' p todo ls =>
    obtain rfl : k' = k := Option.some.inj pending
    have taken := (Cache.isOpen_iff.mp (held key List.mem_cons_self)).1
    refine Spec.reached_next (h key taken) (Spec.mem_links_iff.mp ?_)
    obtain ⟨same, all, _⟩ := sound.stacked
    change p = s.plan key at same
    rw [← same, all]
    simp
  | @fill fs key p ls =>
    obtain rfl : key = k := Option.some.inj pending
    exact h key (Cache.isOpen_iff.mp (held key List.mem_cons_self)).1
  | begin => cases pending
  | attach => cases pending
  | _ => exact asked k pending

end Worker

namespace Workshop

variable (before behind : List Worker)

theorem flatMap_count (k : Key) :
    ((before ++ w :: behind).flatMap Worker.owned).count k =
      w.owned.count k + ((before ++ behind).flatMap Worker.owned).count k := by
  simp only [List.flatMap_append, List.flatMap_cons, List.count_append]
  omega

theorem countP_counting :
    (before ++ w :: behind).countP Worker.isCounting =
      w.isCounting.toNat + (before ++ behind).countP Worker.isCounting := by
  have own : (if w.isCounting = true then 1 else 0) = w.isCounting.toNat := by
    cases w.isCounting <;> rfl
  simp only [List.countP_append, List.countP_cons, own]
  omega

theorem isOpen_of_owned (h : Workshop s wanted c ws) {k : Key} (member : w ∈ ws)
    (mine : k ∈ w.owned) : c.isOpen k = true := by
  have some_owner : k ∈ ws.flatMap Worker.owned := List.mem_flatMap.mpr ⟨w, member, mine⟩
  have positive := List.count_pos_iff.mpr some_owner
  rw [h.owned k] at positive
  cases opened : c.isOpen k
  · rw [opened] at positive
    cases positive
  · rfl

theorem owner_of_isOpen (h : Workshop s wanted c ws) {k : Key} (opened : c.isOpen k = true) :
    ∃ w ∈ ws, k ∈ w.owned := by
  have one := h.owned k
  rw [opened] at one
  have positive : 0 < (ws.flatMap Worker.owned).count k := by
    rw [one]
    decide
  exact List.mem_flatMap.mp (List.count_pos_iff.mp positive)

theorem owned_nodup (h : Workshop s wanted c ws) : (ws.flatMap Worker.owned).Nodup := by
  refine List.nodup_iff_count.mpr fun k => ?_
  rw [h.owned k]
  exact Bool.toNat_le _

theorem empty (s : Spec) (wanted : Key → Prop) : Workshop s wanted .empty [] where
  distinct := List.nodup_nil
  owned _ := rfl
  faithful := Cache.empty_faithful s
  sound := by simp
  counted := rfl
  reached k taken := by cases taken
  asked := by simp

theorem step (h : Workshop s wanted c (before ++ w :: behind)) :
    Workshop s wanted (w.step s c).1 (before ++ (w.step s c).2 :: behind) := by
  have m := w.step_move s c
  generalize (w.step s c).1 = after at m ⊢
  generalize (w.step s c).2 = next at m ⊢
  have here : w ∈ before ++ w :: behind := by simp
  have held : ∀ k ∈ w.owned, c.isOpen k = true := fun k => h.isOpen_of_owned here
  obtain ⟨sound, others⟩ := forall_mem_middle.mp h.sound
  obtain ⟨asked, others_asked⟩ := forall_mem_middle.mp h.asked
  constructor
  · exact m.distinct held h.distinct
  · intro k
    have effect := m.owned_count sound held k
    have old := h.owned k
    rw [flatMap_count] at old ⊢
    omega
  · exact m.faithful sound held h.faithful
  · exact forall_mem_middle.mpr
      ⟨sound.step held m, fun v member => (others v member).mono m.extends⟩
  · have effect := m.counted held
    have old := h.counted
    rw [countP_counting] at old ⊢
    omega
  · exact m.reached held h.reached asked
  · exact forall_mem_middle.mpr ⟨m.asked sound held h.reached asked, others_asked⟩

theorem hire (h : Workshop s wanted c (before ++ behind)) {k : Key} (reached : s.Reached wanted k) :
    Workshop s wanted c (before ++ Worker.start k :: behind) := by
  refine ⟨h.distinct, ?_, h.faithful, ?_, ?_, h.reached, ?_⟩
  · intro other
    rw [flatMap_count, h.owned other]
    simp [Worker.owned, Worker.start]
  · exact forall_mem_middle.mpr ⟨Worker.start_sound s c k, h.sound⟩
  · rw [countP_counting]
    simpa [Worker.isCounting, Worker.start] using h.counted
  · refine forall_mem_middle.mpr ⟨fun other pending => ?_, h.asked⟩
    obtain rfl : k = other := Option.some.inj pending
    exact reached

theorem dismiss {l : Link} (h : Workshop s wanted c (before ++ w :: behind))
    (answer : w.answer? = some l) : Workshop s wanted c (before ++ behind) := by
  obtain rfl := Worker.eq_of_answer answer
  refine ⟨h.distinct, ?_, h.faithful, (forall_mem_middle.mp h.sound).2, ?_, h.reached,
    (forall_mem_middle.mp h.asked).2⟩
  · intro k
    have old := h.owned k
    rw [flatMap_count] at old
    simpa [Worker.owned] using old
  · have old := h.counted
    rw [countP_counting] at old
    simpa [Worker.isCounting] using old

theorem resolved (h : Workshop s wanted c []) {k : Key} (taken : c.isTaken k = true) :
    c.isResolved k = true := by
  have none_owned : (c.isOpen k).toNat = 0 := (h.owned k).symm
  rw [Bool.toNat_eq_zero, Cache.isOpen, taken] at none_owned
  simpa using none_owned

theorem all_counted (h : Workshop s wanted c []) : c.compilations = c.size := h.counted

theorem taken_iff (h : Workshop s wanted c []) (roots : ∀ k, wanted k → c.isTaken k = true)
    (k : Key) : c.isTaken k = true ↔ s.Reached wanted k := by
  constructor
  · exact h.reached k
  · refine Spec.reached_least roots ?_
    intro k next taken edge
    exact h.faithful.edge_taken (h.resolved taken) edge

theorem widen (h : Workshop s wanted c ws) {more : Key → Prop} (le : ∀ k, wanted k → more k) :
    Workshop s more c ws where
  distinct := h.distinct
  owned := h.owned
  faithful := h.faithful
  sound := h.sound
  counted := h.counted
  reached k taken := by
    obtain ⟨root, root_wanted, path⟩ := h.reached k taken
    exact ⟨root, le root root_wanted, path⟩
  asked v member k pending := by
    obtain ⟨root, root_wanted, path⟩ := h.asked v member k pending
    exact ⟨root, le root root_wanted, path⟩

end Workshop
end ApiPayload
