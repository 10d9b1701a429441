import ApiPayload.Proofs.Crew
import ApiPayload.Proofs.Results

/-
What comes of threads that use a spec for the first time at once: nothing is prepared twice, nobody
waits for ever, and in the end nothing tells whether they were many.
-/
namespace ApiPayload

open Schema

variable {s : Spec} {cs : Caches} {t : Thread}

theorem Thread.eq_of_isDone (done : t.isDone = true) : ∃ held outcomes, t = ⟨[], held, outcomes, .free⟩ := by
  obtain ⟨tasks, held, outcomes, now⟩ := t
  unfold isDone at done
  split at done
  · rename_i free none_left
    cases free
    cases none_left
    exact ⟨held, outcomes, rfl⟩
  · cases done

theorem Thread.mem_heldBy {side : Side} {h : Held} :
    h ∈ t.heldBy side ↔ h ∈ t.held ∧ h.side = side := by
  simp [heldBy]

namespace Crew

variable {plans : List (List Task)} {crew : Crew}

theorem workers_owned (side : Side) (threads : List Thread) :
    (workers side threads).flatMap Worker.owned = threads.flatMap (Thread.owned side) := by
  induction threads with
  | nil => rfl
  | cons t rest ih =>
    rw [List.flatMap_cons, ← ih, workers, List.filterMap_cons]
    cases works : t.worker? side <;> simp [Thread.owned, works, workers]

theorem Kept.one_owner (h : Kept s plans crew) {side : Side} {k : Key} {i j : Nat} {t u : Thread}
    (first : crew.threads[i]? = some t) (second : crew.threads[j]? = some u)
    (mine : k ∈ t.owned side) (yours : k ∈ u.owned side) : i = j := by
  have once := (h.shop side).owned_nodup
  rw [workers_owned] at once
  have apart := List.pairwise_iff_getElem.mp (List.nodup_flatMap.mp once).2
  obtain ⟨i_inside, rfl⟩ := List.getElem?_eq_some_iff.mp first
  obtain ⟨j_inside, rfl⟩ := List.getElem?_eq_some_iff.mp second
  rcases Nat.lt_trichotomy i j with less | same | more
  · exact absurd yours (apart i j i_inside j_inside less mine)
  · exact same
  · exact absurd mine (apart j i j_inside i_inside more yours)

theorem Kept.fills_nodup (h : Kept s plans crew) : crew.fills.Nodup := by
  refine List.nodup_iff_count.mpr fun slot => ?_
  obtain ⟨side, k⟩ := slot
  rw [h.fills side k]
  exact Bool.toNat_le _

theorem Kept.mem_fills (h : Kept s plans crew) (side : Side) (k : Key) :
    (side, k) ∈ crew.fills ↔ (crew.caches.on side).isResolved k = true := by
  rw [← List.count_pos_iff, h.fills side k]
  cases (crew.caches.on side).isResolved k <;> decide

/-- The slot that a thread waits for is owned by one that does not wait. -/
theorem Kept.awaited (h : Kept s plans crew) (member : t ∈ crew.threads) {side : Side} {k : Key}
    (waits : t.awaits? crew.caches = some (side, k)) :
    ∃ u ∈ crew.threads, ∃ id required w, u.now = .preparing side id required w ∧ k ∈ w.owned ∧
      (u.step s crew.caches).isSome = true := by
  obtain ⟨tasks, held, outcomes, now⟩ := t
  cases now with
  | calling at_side own v rest =>
    cases rest with
    | done r => cases waits
    | need l next =>
      simp only [Thread.awaits?] at waits
      split at waits
      · cases waits
      · rename_i unfilled
        cases waits
        have taken := ((h.sound _ member).called side own v _ rfl).needed.taken
        have opened : (crew.caches.on side).isOpen l.key = true := by
          simp [Cache.isOpen, taken, unfilled]
        obtain ⟨w, works, mine⟩ := (h.shop side).owner_of_isOpen opened
        obtain ⟨u, other, prepares⟩ := List.mem_filterMap.mp works
        have steps := u.preparing_steps s crew.caches prepares
        obtain ⟨tasks, held, outcomes, now⟩ := u
        cases now with
        | preparing at_side id required w' =>
          simp only [Thread.worker?] at prepares
          split at prepares
          · rename_i same
            cases prepares
            subst same
            exact ⟨_, other, id, required, w, rfl, mine, steps⟩
          · cases prepares
        | _ => cases prepares
  | _ => cases waits

theorem Kept.settled (h : Kept s plans crew) (finished : ∀ t ∈ crew.threads, t.isDone = true)
    (side : Side) : Settled s (s.Wanted (wanted plans side)) (crew.caches.on side) := by
  have nobody : workers side crew.threads = [] := by
    refine List.filterMap_eq_nil_iff.mpr fun t member => ?_
    obtain ⟨held, outcomes, rfl⟩ := Thread.eq_of_isDone (finished t member)
    rfl
  have shop := h.shop side
  rw [nobody] at shop
  refine ⟨shop, ?_⟩
  rintro k ⟨r, asked, rfl⟩
  obtain ⟨tasks, plan, own⟩ := List.mem_flatMap.mp asked
  have listed : requestsOf side tasks ∈ crew.threads.map (Thread.requests side) := by
    rw [h.requests side]
    exact List.mem_map.mpr ⟨tasks, plan, rfl⟩
  obtain ⟨t, member, same⟩ := List.mem_map.mp listed
  obtain ⟨held, outcomes, rfl⟩ := Thread.eq_of_isDone (finished t member)
  rw [← same] at own
  simp only [Thread.requests, Thread.asking, requestsOf, List.filterMap_nil, List.append_nil,
    List.mem_map] at own
  obtain ⟨got, mine, rfl⟩ := own
  obtain ⟨kept, rfl⟩ := Thread.mem_heldBy.mp mine
  obtain ⟨holds, key⟩ := (h.sound _ member).held got kept
  rw [← key]
  exact holds.taken

theorem Kept.held_in_order (h : Kept s plans crew) {side : Side} {i : Nat} {tasks : List Task}
    (member : crew.threads[i]? = some t) (plan : plans[i]? = some tasks) (done : t.isDone = true) :
    (t.heldBy side).map (fun own => (own.id, own.required)) = requestsOf side tasks := by
  have same := congrArg (·[i]?) (h.requests side)
  simp only [List.getElem?_map, member, plan, Option.map_some, Option.some.injEq] at same
  obtain ⟨held, outcomes, rfl⟩ := Thread.eq_of_isDone done
  simpa [Thread.requests, Thread.asking, requestsOf] using same

/-- Threads that use a side for the first time at once, taking turns in any order. No key is ever in
preparation twice and no slot is filled twice. In the end the cache has the keys and the count that
requests one after the other leave, and transforms give what theirs give. -/
theorem first_use_at_once (s : Spec) (plans : List (List Task)) (schedule : List Nat) :
    let crew := run s plans schedule
    (∀ (side : Side) (k : Key) (i j : Nat) (t u : Thread), crew.threads[i]? = some t →
      crew.threads[j]? = some u → k ∈ t.owned side → k ∈ u.owned side → i = j) ∧
    crew.fills.Nodup ∧
    (∀ side k, (side, k) ∈ crew.fills ↔ (crew.caches.on side).isResolved k = true) ∧
    (∀ t ∈ crew.threads, ∀ o ∈ t.outcomes, ∀ uses,
      o.result = (s.transform ((s.after uses).on o.side) o.id o.required).2.call o.side.direction
        true o.value) ∧
    ((∀ t ∈ crew.threads, t.isDone = true) → ∀ side,
      let c := crew.caches.on side
      let alone := s.prepareAll .empty (wanted plans side)
      (∀ k, c.isTaken k = alone.isTaken k) ∧ c.compilations = alone.compilations ∧
      (∀ (i : Nat) (t : Thread) (tasks : List Task), crew.threads[i]? = some t →
        plans[i]? = some tasks →
        (t.heldBy side).map (fun h => (h.id, h.required)) = requestsOf side tasks) ∧
      ∀ t ∈ crew.threads, ∀ h ∈ t.heldBy side, ∀ v,
        Transform.call side.direction ⟨h.link, c, s.hops⟩ true v =
          (s.transform alone h.id h.required).2.call side.direction true v) := by
  intro crew
  have kept : Kept s plans crew := kept_run s plans schedule
  refine ⟨fun side k i j t u first second mine yours => kept.one_owner first second mine yours,
    kept.fills_nodup, kept.mem_fills, ?_, ?_⟩
  · intro t member o ended uses
    obtain ⟨_, settled⟩ := s.settled_after uses o.side
    rw [settled.call_eq]
    exact (kept.sound t member).outcomes o ended
  · intro finished side c alone
    have settled := kept.settled finished side
    have other := s.settled_requests (wanted plans side)
    obtain ⟨taken, compilations⟩ := Spec.settled_alike other settled
    refine ⟨taken, compilations, ?_, ?_⟩
    · intro i t tasks member plan
      exact kept.held_in_order member plan (finished t (List.mem_of_getElem? member))
    · intro t member h mine v
      obtain ⟨got, rfl⟩ := Thread.mem_heldBy.mp mine
      obtain ⟨holds, key⟩ := (kept.sound t member).held h got
      rw [other.call_eq, ← key]
      exact (Mirrors.transform holds).run_eq fun l held => settled.follow held

/-- Chains of any length. -/
def chain : Json :=
  .object [("definitions", .object [("Chain", .object [("type", .string "object"),
    ("properties", .object [("rest", .object [("$ref", .string "#/definitions/Chain")])])])])]

/-- One thread reads a chain of two links, the other just asks for a transform. -/
def chainPlans : List (List Task) :=
  [[.obtain .unmarshal 0 true, .call .unmarshal 0 (.object [("rest", .object [])])],
    [.obtain .unmarshal 0 false]]

/-- Two threads that take turns at a schema that refers to itself are done in the end, with the keys and the count
that their requests leave one after the other. -/
theorem first_use_of_chain : ∃ s, Spec.build chain .standard .standard = .ok s ∧
    let crew := run s chainPlans (List.replicate 25 [0, 1]).flatten
    (∀ t ∈ crew.threads, t.isDone = true) ∧ (∃ t ∈ crew.threads, t.outcomes ≠ []) ∧
    ∀ side, (∀ k, (crew.caches.on side).isTaken k =
        (s.prepareAll .empty (wanted chainPlans side)).isTaken k) ∧
      (crew.caches.on side).compilations = (s.prepareAll .empty (wanted chainPlans side)).compilations := by
  have made : (Spec.build chain .standard .standard).toOption.any (fun s =>
      let crew := run s chainPlans (List.replicate 25 [0, 1]).flatten
      crew.threads.all Thread.isDone && crew.threads.any fun t => !t.outcomes.isEmpty) = true := by
    decide +kernel
  obtain ⟨s, built, made⟩ := Except.exists_of_any made
  obtain ⟨done, called⟩ := Bool.and_eq_true_iff.mp made
  have finished := List.all_eq_true.mp done
  obtain ⟨t, member, called⟩ := List.any_eq_true.mp called
  refine ⟨s, built, finished, ⟨t, member, fun none => ?_⟩, fun side => ?_⟩
  · rw [none] at called
    cases called
  · obtain ⟨_, _, _, _, law⟩ := first_use_at_once s chainPlans (List.replicate 25 [0, 1]).flatten
    obtain ⟨taken, compilations, _⟩ := law finished side
    exact ⟨taken, compilations⟩

/-- Threads that obtain and call transforms of both sides. A call waits for nobody but a thread that
is preparing that very key and has a step to take; so some thread has one until all are done. -/
theorem no_deadlock (s : Spec) (plans : List (List Task)) (schedule : List Nat) :
    let crew := run s plans schedule
    (∀ t ∈ crew.threads, t.isDone = false → t.step s crew.caches = none →
      ∃ side k, t.awaits? crew.caches = some (side, k)) ∧
    (∀ t ∈ crew.threads, ∀ side k, t.awaits? crew.caches = some (side, k) →
      ∃ u ∈ crew.threads, ∃ id required w, u.now = .preparing side id required w ∧ k ∈ w.owned ∧
        (u.step s crew.caches).isSome = true) ∧
    ¬((∃ t ∈ crew.threads, t.isDone = false) ∧
      ∀ t ∈ crew.threads, t.isDone = false → t.step s crew.caches = none) := by
  intro crew
  have kept : Kept s plans crew := kept_run s plans schedule
  have stuck : ∀ t ∈ crew.threads, t.isDone = false → t.step s crew.caches = none →
      ∃ side k, t.awaits? crew.caches = some (side, k) := by
    intro t _ unfinished blocked
    rcases Thread.done_or_awaits blocked with done | ⟨⟨side, k⟩, waits⟩
    · rw [done] at unfinished
      cases unfinished
    · exact ⟨side, k, waits⟩
  refine ⟨stuck, fun t member side k waits => kept.awaited member waits, ?_⟩
  rintro ⟨⟨t, member, unfinished⟩, all_blocked⟩
  obtain ⟨side, k, waits⟩ := stuck t member unfinished (all_blocked t member unfinished)
  obtain ⟨u, other, id, required, w, prepares, _, steps⟩ := kept.awaited member waits
  have busy : u.isDone = false := by simp [Thread.isDone, prepares]
  rw [all_blocked u other busy] at steps
  cases steps

/-- The other thread has begun to prepare the link that the first one follows: the first one waits, and the other has
a step to take. -/
theorem no_deadlock_of_chain : ∃ s, Spec.build chain .standard .standard = .ok s ∧
    let crew := run s chainPlans (List.replicate 3 1 ++ List.replicate 20 0)
    ∃ t ∈ crew.threads, t.isDone = false ∧ t.step s crew.caches = none ∧
      ∃ u ∈ crew.threads, (u.step s crew.caches).isSome = true := by
  have made : (Spec.build chain .standard .standard).toOption.any (fun s =>
      let crew := run s chainPlans (List.replicate 3 1 ++ List.replicate 20 0)
      crew.threads.any fun t => !t.isDone && (t.step s crew.caches).isNone) = true := by
    decide +kernel
  obtain ⟨s, built, made⟩ := Except.exists_of_any made
  obtain ⟨t, member, made⟩ := List.any_eq_true.mp made
  obtain ⟨unfinished, blocked⟩ := Bool.and_eq_true_iff.mp made
  have unfinished : t.isDone = false := by simpa using unfinished
  have blocked := Option.isNone_iff_eq_none.mp blocked
  obtain ⟨waiting, owned, _⟩ := no_deadlock s chainPlans (List.replicate 3 1 ++ List.replicate 20 0)
  obtain ⟨side, k, waits⟩ := waiting t member unfinished blocked
  obtain ⟨u, other, _, _, _, _, _, steps⟩ := owned t member side k waits
  exact ⟨s, built, t, member, unfinished, blocked, u, other, steps⟩

end Crew
end ApiPayload
