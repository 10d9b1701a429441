import Mathlib.Data.Set.Card
import ApiPayload.Proofs.Workshop

/-
Requests one after the other. A worker alone comes to an end, since every step uses up a bound on
the links still to be made; after it the cache holds what the requests reach, and nothing else.
-/
namespace ApiPayload

variable {s : Spec} {wanted : Key → Prop} {c after : Cache} {w next : Worker} {k : Key}

/-- Steps that are due whatever else happens; those for the links of an untaken key are not. -/
def Phase.cost (s : Spec) : Phase → Nat
  | .probe _ => 6
  | .read _ => 5
  | .enter _ => 4
  | .look _ => 2
  | .count k => 3 + 7 * (s.plan k).links.length
  | .work => 0
  | .answer _ => 1

def Frame.cost (f : Frame) : Nat := 2 + 7 * f.todo.length

def Worker.cost (s : Spec) (w : Worker) : Nat := w.phase.cost s + (w.frames.map Frame.cost).sum

namespace Spec

/-- Links of the keys in a list that nobody has taken. -/
def freeLinks (s : Spec) (c : Cache) (keys : List Key) : Nat :=
  ((keys.filter fun k => !c.isTaken k).map fun k => (s.plan k).links.length).sum

def untaken (s : Spec) (c : Cache) : Nat := 7 * s.freeLinks c s.keys

theorem mem_keys {s : Spec} {k : Key} : k ∈ s.keys ↔ k.schema < s.nodes.size := by
  obtain ⟨id, required⟩ := k
  cases required <;> simp [keys]

theorem links_of_not_mem_keys (h : k ∉ s.keys) : (s.plan k).links = [] := by
  rw [mem_keys, not_lt] at h
  have missing : s.node k.schema = .blank := by simp [node, h]
  simp [plan, missing, Schema.Node.blank, Plan.links, Core.links]

theorem freeLinks_cons (s : Spec) (c : Cache) (k : Key) (keys : List Key) :
    s.freeLinks c (k :: keys) =
      (if c.isTaken k = true then 0 else (s.plan k).links.length) + s.freeLinks c keys := by
  cases taken : c.isTaken k <;> simp [freeLinks, taken]

theorem freeLinks_mono (e : c.Extends after) (keys : List Key) :
    s.freeLinks after keys ≤ s.freeLinks c keys := by
  induction keys with
  | nil => exact Nat.le_refl _
  | cons k rest ih =>
    rw [freeLinks_cons, freeLinks_cons]
    by_cases taken : c.isTaken k = true
    · rw [if_pos taken, if_pos (e.taken k taken)]
      omega
    · rw [if_neg taken]
      split <;> omega

theorem freeLinks_take {keys : List Key} (free : c.isTaken k = false) (member : k ∈ keys) :
    s.freeLinks (c.take k) keys + (s.plan k).links.length ≤ s.freeLinks c keys := by
  induction keys with
  | nil => simp at member
  | cons other rest ih =>
    rw [freeLinks_cons, freeLinks_cons]
    have less := freeLinks_mono (s := s) (Cache.Extends.take c k) rest
    by_cases same : k = other
    · subst other
      rw [if_pos (by rw [Cache.isTaken_take]; simp), if_neg (by simp [free])]
      omega
    · have later := ih ((List.mem_cons.mp member).resolve_left same)
      have unchanged : (c.take k).isTaken other = c.isTaken other := by
        rw [Cache.isTaken_take]
        simp [same]
      rw [unchanged]
      omega

theorem untaken_mono (e : c.Extends after) : s.untaken after ≤ s.untaken c := by
  have less := freeLinks_mono (s := s) e s.keys
  unfold untaken
  omega

theorem untaken_take (free : c.isTaken k = false) :
    s.untaken (c.take k) + 7 * (s.plan k).links.length ≤ s.untaken c := by
  by_cases member : k ∈ s.keys
  · have less := freeLinks_take (s := s) free member
    unfold untaken
    omega
  · rw [links_of_not_mem_keys member]
    simpa using untaken_mono (s := s) (Cache.Extends.take c k)

theorem untaken_le (s : Spec) (c : Cache) : s.untaken c + 7 ≤ s.effort := by
  have all : s.freeLinks c s.keys ≤ s.keys.foldr (fun k n => (s.plan k).links.length + n) 0 := by
    induction s.keys with
    | nil => exact Nat.le_refl _
    | cons k rest ih =>
      rw [freeLinks_cons, List.foldr_cons]
      split <;> omega
  unfold untaken effort
  omega

end Spec

/-- Every step before the answer comes uses up some of the bound, other workers or not. -/
theorem Worker.Move.cost_decreases (m : Worker.Move s c w after next) (unanswered : w.answer? = none)
    (busy : w.phase = .work → w.frames ≠ []) :
    s.untaken after + next.cost s < s.untaken c + w.cost s := by
  have less := Spec.untaken_mono (s := s) m.extends
  cases m with
  | take free =>
    have moved := Spec.untaken_take (s := s) free
    simp only [Worker.cost, Phase.cost]
    omega
  | begin =>
    simp only [Worker.cost, Phase.cost, List.map_cons, List.sum_cons, Frame.cost]
    omega
  | request | fill | attach =>
    simp only [Worker.cost, Phase.cost, List.map_cons, List.sum_cons, Frame.cost, List.length_cons,
      List.length_nil]
    omega
  | finished => simp [Worker.answer?] at unanswered
  | idle => exact absurd rfl (busy rfl)
  | _ =>
    simp only [Worker.cost, Phase.cost]
    omega

/-- A worker alone gets its answer, with any fuel that pays for its steps. -/
theorem Workshop.run_ends (h : Workshop s wanted c [w]) :
    ∃ after l, (∀ fuel, s.untaken c + w.cost s ≤ fuel → w.run s fuel c = (after, some l)) ∧
      Workshop s wanted after [] ∧ c.Extends after ∧ after.Holds l ∧ w.goal? = some l.key := by
  induction bound : s.untaken c + w.cost s using Nat.strongRecOn generalizing c w with
  | ind n ih =>
    subst bound
    have sound := h.sound w (List.mem_singleton.mpr rfl)
    cases answer : w.answer? with
    | some l =>
      obtain rfl := Worker.eq_of_answer answer
      refine ⟨c, l, ?_, dismiss [] [] h answer, .refl c,
        sound.answered l rfl, rfl⟩
      intro fuel _
      cases fuel <;> rfl
    | none =>
      have m := w.step_move s c
      have less := m.cost_decreases answer sound.busy
      have stepped : Workshop s wanted (w.step s c).1 [(w.step s c).2] :=
        step [] [] h
      obtain ⟨after, l, ends, rest, extended, held, goal⟩ := ih _ less stepped rfl
      refine ⟨after, l, ?_, rest, m.extends.trans extended, held, m.goal.symm.trans goal⟩
      intro fuel enough
      cases fuel with
      | zero => omega
      | succ fuel =>
        simp only [Worker.run, answer]
        exact ends fuel (by omega)

/-- Nobody works, and all that is wanted is there. -/
structure Settled (s : Spec) (wanted : Key → Prop) (c : Cache) : Prop where
  shop : Workshop s wanted c []
  roots : ∀ k, wanted k → c.isTaken k = true

theorem settled_empty (s : Spec) : Settled s (fun _ => False) .empty :=
  ⟨.empty s _, fun _ h => h.elim⟩

theorem Settled.congr (h : Settled s wanted c) {same : Key → Prop} (eq : ∀ k, same k ↔ wanted k) :
    Settled s same c :=
  ⟨h.shop.widen fun k => (eq k).mpr, fun k root => h.roots k ((eq k).mp root)⟩

theorem Settled.prepare (h : Settled s wanted c) (id : Schema.Id) (required : Bool) :
    ∃ after l, s.prepare c id required = (after, l) ∧
      (∀ fuel, s.effort ≤ fuel → (Worker.start (s.key id required)).run s fuel c = (after, some l)) ∧
      Settled s (fun k => wanted k ∨ k = s.key id required) after ∧ c.Extends after ∧
      after.Holds l ∧ l.key = s.key id required := by
  have wider : Workshop s (fun k => wanted k ∨ k = s.key id required) c [] :=
    h.shop.widen fun k => .inl
  have hired := wider.hire [] [] (Spec.reached_root (.inr rfl))
  obtain ⟨after, l, ends, rest, extended, held, goal⟩ := hired.run_ends
  have enough : s.untaken c + (Worker.start (s.key id required)).cost s ≤ s.effort := by
    have bound := s.untaken_le c
    simp only [Worker.cost, Worker.start, Phase.cost, List.map_nil, List.sum_nil]
    omega
  have same : l.key = s.key id required := (Option.some.inj goal).symm
  refine ⟨after, l, ?_, fun fuel h => ends fuel (by omega), ⟨rest, ?_⟩, extended, held, same⟩
  · simp only [Spec.prepare, ends s.effort enough, Option.getD_some]
  · rintro k (old | rfl)
    · exact extended.taken k (h.roots k old)
    · rw [← same]
      exact held.taken

namespace Spec

def prepareAll (s : Spec) (c : Cache) (requests : List (Schema.Id × Bool)) : Cache :=
  requests.foldl (fun c r => (s.prepare c r.1 r.2).1) c

def Wanted (s : Spec) (requests : List (Schema.Id × Bool)) (k : Key) : Prop :=
  ∃ r ∈ requests, k = s.key r.1 r.2

theorem settled_prepareAll (h : Settled s wanted c) (requests : List (Schema.Id × Bool)) :
    Settled s (fun k => wanted k ∨ s.Wanted requests k) (s.prepareAll c requests) ∧
      c.Extends (s.prepareAll c requests) := by
  induction requests generalizing wanted c with
  | nil => exact ⟨h.congr fun k => by simp [Wanted], .refl c⟩
  | cons r rest ih =>
    obtain ⟨after, l, prepared, _, settled, extended, _⟩ := h.prepare r.1 r.2
    have first : (s.prepare c r.1 r.2).1 = after := by rw [prepared]
    obtain ⟨all, later⟩ := ih settled
    simp only [prepareAll, List.foldl_cons, first]
    refine ⟨all.congr fun k => ?_, extended.trans later⟩
    simp [Wanted, or_assoc]

theorem settled_requests (s : Spec) (requests : List (Schema.Id × Bool)) :
    Settled s (s.Wanted requests) (s.prepareAll .empty requests) :=
  (settled_prepareAll (settled_empty s) requests).1.congr fun k => by simp

theorem taken_prepareAll (s : Spec) (requests : List (Schema.Id × Bool)) (k : Key) :
    (s.prepareAll .empty requests).isTaken k = true ↔ s.Reached (s.Wanted requests) k :=
  have settled := s.settled_requests requests
  settled.shop.taken_iff settled.roots k

theorem encard_taken {ws : List Worker} (h : Workshop s wanted c ws) :
    Set.encard {k | c.isTaken k = true} = c.size := by
  have keys : {k | c.isTaken k = true} = ((Entries.keys c.slots).toFinset : Set Key) := by
    ext k
    simp [Cache.isTaken_iff]
  rw [keys, Set.encard_coe_eq_coe_finsetCard, List.toFinset_card_of_nodup h.distinct, Cache.size_eq]

theorem settled_alike (h : Settled s wanted c) (other : Settled s wanted after) :
    (∀ k, after.isTaken k = c.isTaken k) ∧ after.compilations = c.compilations := by
  have taken : ∀ k, after.isTaken k = c.isTaken k := by
    intro k
    rw [Bool.eq_iff_iff, h.shop.taken_iff h.roots, other.shop.taken_iff other.roots]
  refine ⟨taken, ?_⟩
  have sizes := encard_taken other.shop
  simp only [taken] at sizes
  rw [encard_taken h.shop] at sizes
  rw [other.shop.all_counted, h.shop.all_counted]
  exact_mod_cast sizes.symm

/-- Requests of one direction, in any order and as often as may be: each ends, leaves no slot open,
and the keys are those that the requested keys reach, each of them compiled once and for good. -/
theorem requests_cache_closure (s : Spec) (requests : List (Schema.Id × Bool)) :
    let c := s.prepareAll .empty requests
    (∀ id required, ∃ after l, s.prepare c id required = (after, l) ∧ ∀ fuel, s.effort ≤ fuel →
      (Worker.start (s.key id required)).run s fuel c = (after, some l)) ∧
    (∀ k, c.isTaken k = true → c.isResolved k = true) ∧
    (∀ k, c.isTaken k = true ↔ s.Reached (s.Wanted requests) k) ∧
    c.compilations = c.size ∧ Set.encard {k | s.Reached (s.Wanted requests) k} = c.size ∧
    (∀ others, (∀ r, r ∈ others ↔ r ∈ requests) →
      (∀ k, (s.prepareAll .empty others).isTaken k = c.isTaken k) ∧
      (s.prepareAll .empty others).compilations = c.compilations) ∧
    ∀ later k p, c.plan? k = some p → (s.prepareAll c later).plan? k = some p := by
  intro c
  have settled := s.settled_requests requests
  have keys := s.taken_prepareAll requests
  have reached : {k | s.Reached (s.Wanted requests) k} = {k | c.isTaken k = true} :=
    Set.ext fun k => (keys k).symm
  refine ⟨?_, fun k => settled.shop.resolved, keys, settled.shop.all_counted, ?_, ?_, ?_⟩
  · intro id required
    obtain ⟨after, l, prepared, ends, _⟩ := settled.prepare id required
    exact ⟨after, l, prepared, ends⟩
  · rw [reached]
    exact encard_taken settled.shop
  · intro others same
    exact settled_alike settled ((s.settled_requests others).congr fun k => by
      simp only [Wanted, same])
  · intro later k p
    exact (settled_prepareAll settled later).2.kept k p

end Spec
end ApiPayload
