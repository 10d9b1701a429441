import Mathlib.Data.List.Chain
import ApiPayload.Proofs.Results
import ApiPayload.Proofs.Ties

/-
Transforms that outlive their spec. Strong links still lead to their plans then, and weak ones lead
nowhere; so a call ends as before or finds a weak link. Requests come one after the other here: of
threads that prepare at once one may be handed a weak link to what another is just preparing, with
no schema that comes round to itself.
-/
namespace ApiPayload

open Schema
open Relation (ReflTransGen TransGen)

variable {α β : Type} {d : Direction α β} {v : α} {s : Spec} {wanted : Key → Prop}
  {c after : Cache} {k : Key} {l : Link}

namespace Cache

theorem follow_lost (c : Cache) (l : Link) :
    c.follow false l = c.follow true l ∨ ∃ schema, c.follow false l = .error (.detached schema) := by
  cases l with
  | strong k => exact .inl rfl
  | weak k => exact .inr ⟨_, rfl⟩

theorem follow_strong {p : Plan Link} (filled : c.plan? k = some p) (alive : Bool) :
    c.follow alive (.strong k) = .ok p := by
  simp [follow, Link.key, filled]

theorem of_follow_lost {p : Plan Link} (found : c.follow false l = .ok p) :
    ∃ k, l = .strong k ∧ c.plan? k = some p := by
  cases l with
  | weak k => cases found
  | strong k =>
    refine ⟨k, rfl, ?_⟩
    cases filled : c.plan? k with
    | none =>
      simp only [follow, Link.key, filled, Option.elim_none] at found
      cases found
    | some q =>
      rw [follow_strong filled] at found
      cases found
      rfl

theorem follow_error {alive : Bool} {e : TransformError} (h : c.follow alive l = .error e) :
    ∃ schema, e = .detached schema := by
  have lost : (c.plan? l.key).elim (.error (.detached ("#" ++ toString l.key.schema))) .ok =
      (.error e : Except TransformError (Plan Link)) →
      e = .detached ("#" ++ toString l.key.schema) := by
    intro failed
    cases filled : c.plan? l.key <;> rw [filled] at failed <;> cases failed
    rfl
  cases l with
  | strong k => exact ⟨_, lost h⟩
  | weak k =>
    cases alive with
    | true => exact ⟨_, lost h⟩
    | false =>
      cases h
      exact ⟨_, rfl⟩

/-- A key never holds itself, however many plans are between. -/
theorem Orderly.not_held_by_self (h : c.Orderly s) (k : Key) :
    ¬ TransGen (fun outer inner => c.HeldBy inner outer) k k := by
  intro round
  have turned : TransGen c.HeldBy k k := Relation.transGen_swap.mp round
  exact h.founded.transGen.asymmetric k k turned turned

theorem Orderly.chain_nodup (h : c.Orderly s) {chosen : List Key}
    (chain : List.IsChain (fun outer inner => c.HeldBy inner outer) chosen) : chosen.Nodup := by
  have wider := chain.imp fun _ _ held => TransGen.single held
  have pairs := List.isChain_iff_pairwise.mp wider
  refine pairs.imp fun {a b} held same => ?_
  subst same
  exact h.not_held_by_self a held

end Cache

/-- A value that is handed down without end went through that many plans, each held by the last. -/
theorem Settled.chain_of_endless (formed : s.WellFormed) (h : Settled s wanted c) {p : Plan Link}
    (filled : c.plan? k = some p) {n : Nat} {model : String}
    (endless : (p.settle d v n).run (c.follow false) = .error (.endless model)) :
    ∃ chosen : List Key, chosen.length = n ∧
      List.IsChain (fun outer inner => c.HeldBy inner outer) (k :: chosen) ∧
      ∀ x ∈ chosen, x ∈ s.models.map fun m => s.key m.schema true := by
  induction n generalizing k p with
  | zero => exact ⟨[], rfl, .singleton k, by simp⟩
  | succ n ih =>
    unfold Plan.settle at endless
    split at endless
    · cases endless
    · rename_i l chosen
      rcases Except.bind_eq_error.mp endless with lost | ⟨q, found, on⟩
      · obtain ⟨schema, gone⟩ := Cache.follow_error lost
        cases gone
      · obtain ⟨inner, rfl, at_inner⟩ := Cache.of_follow_lost found
        obtain ⟨rest, length, chain, models⟩ := ih at_inner on
        refine ⟨inner :: rest, by rw [List.length_cons, length], ?_, ?_⟩
        · exact .cons_cons ⟨p, filled, Plan.next?_mem chosen⟩ chain
        · have keyed : (s.plan k).next? d v = some inner := by
            rw [← (h.shop.faithful k p filled).1, Plan.next?_map, chosen]
            rfl
          intro x member
          rcases List.mem_cons.mp member with rfl | member
          · exact formed.model_of_next? keyed
          · exact models x member

/-- Without the spec no call goes round for ever: somewhere round there is a weak link. -/
theorem Settled.lost_ends (formed : s.WellFormed) (h : Settled s wanted c) (orderly : c.Orderly s)
    (l : Link) (v : α) (model : String) :
    (transformBy d s.hops l v).run (c.follow false) ≠ .error (.endless model) := by
  induction size : d.size v using Nat.strongRecOn generalizing l v with
  | ind bound ih =>
    subst size
    intro endless
    rw [transformBy_run] at endless
    rcases Except.bind_eq_error.mp endless with lost | ⟨p, found, guarded⟩
    · obtain ⟨schema, gone⟩ := Cache.follow_error lost
      cases gone
    · obtain ⟨k, rfl, filled⟩ := Cache.of_follow_lost found
      rcases Plan.guard_error guarded with own | whole
      · cases own.1
      · rcases Except.bind_eq_error.mp whole with unsettled | ⟨q, _, applied⟩
        · obtain ⟨chosen, length, chain, models⟩ := h.chain_of_endless formed filled unsettled
          have distinct := (List.nodup_cons.mp (orderly.chain_nodup chain)).2
          have few := distinct.length_le_of_subset models
          have many : chosen.length = s.models.length + 1 := length
          rw [List.length_map] at few
          omega
        · rcases Plan.apply_error applied with own | ⟨inner, _, x, smaller, below⟩
          · cases own.1
          · exact ih _ smaller inner x rfl below

theorem Settled.call_held (h : Settled s wanted c) (held : c.Holds l) (d : Direction α β) (v : α) :
    Transform.call d ⟨l, c, s.hops⟩ true v = s.resultAt d l.key v :=
  (Mirrors.transform held).run_eq fun _ held => h.follow held

/-- Below a schema from which none comes round to itself, all links are strong. -/
theorem Settled.call_free (h : Settled s wanted c) (orderly : c.Orderly s)
    (filled : c.isResolved k = true)
    (free : ∀ other, ReflTransGen s.Edge k other → ¬ TransGen s.Edge other other)
    (d : Direction α β) (v : α) :
    Transform.call d ⟨.strong k, c, s.hops⟩ false v = s.resultAt d k v := by
  let known (l : Link) : Prop :=
    ∃ other, l = .strong other ∧ c.isResolved other = true ∧ ReflTransGen s.Edge k other
  have led : ∀ l, known l → ∃ p, c.follow false l = .ok p ∧ Keyed known p (s.plan l.key) := by
    rintro l ⟨outer, rfl, resolved, reached⟩
    obtain ⟨p, at_outer⟩ := Cache.isResolved_iff.mp resolved
    obtain ⟨same, held⟩ := h.shop.faithful outer p at_outer
    refine ⟨p, Cache.follow_strong at_outer false, same, fun inner member => ?_⟩
    have edge : s.Edge outer inner.key := by
      refine Spec.mem_links_iff.mp ?_
      rw [← same, links_map]
      exact List.mem_map.mpr ⟨inner, member, rfl⟩
    cases inner with
    | strong other => exact ⟨other, rfl, held _ member, reached.tail edge⟩
    | weak other =>
      have back := orderly.round outer p other at_outer member
      exact absurd (TransGen.head' edge back) (free outer reached)
  have root : known (.strong k) := ⟨k, rfl, filled, .refl⟩
  exact (Mirrors.transform root).run_eq led

namespace Spec

theorem orderly_after (s : Spec) (uses : List Use) (side : Side) :
    ∃ wanted, Settled s wanted ((s.after uses).on side) ∧ ((s.after uses).on side).Orderly s := by
  refine uses_keep (fun _ c => ∃ wanted, Settled s wanted c ∧ c.Orderly s) ?_ ?_ uses side
  · rintro side c id required ⟨wanted, settled, orderly⟩
    obtain ⟨after, l, prepared, _, later, _⟩ := settled.prepare id required
    have kept := (settled.prepare_orderly orderly id required).1
    rw [prepared] at kept ⊢
    exact ⟨_, later, kept⟩
  · intro side
    refine ⟨fun _ => False, ?_⟩
    cases side <;> exact ⟨settled_empty s, Cache.empty_orderly s⟩

theorem extends_after (s : Spec) (uses : List Use) (side : Side) (id : Id) (required : Bool)
    (more : List Use) :
    (s.prepare ((s.after uses).on side) id required).1.Extends
      ((s.after (uses ++ .obtain side id required :: more)).on side) := by
  have split : s.after (uses ++ .obtain side id required :: more) =
      more.foldl s.use (s.use (s.after uses) (.obtain side id required)) := by
    simp only [after, List.foldl_append, List.foldl_cons]
  let keeps (at_side : Side) (c : Cache) : Prop := (∃ wanted, Settled s wanted c) ∧
    (at_side = side → (s.prepare ((s.after uses).on side) id required).1.Extends c)
  have kept : keeps side ((s.after (uses ++ .obtain side id required :: more)).on side) := by
    rw [split]
    refine uses_keep keeps ?_ ?_ more side
    · rintro at_side c own own_required ⟨⟨wanted, settled⟩, extended⟩
      obtain ⟨after, l, prepared, _, later, further, _⟩ := settled.prepare own own_required
      rw [prepared]
      exact ⟨⟨_, later⟩, fun same => (extended same).trans further⟩
    · intro at_side
      refine ⟨?_, fun same => ?_⟩
      · have all := s.settled_after (uses ++ [.obtain side id required]) at_side
        simpa only [after, List.foldl_append, List.foldl_cons, List.foldl_nil] using all
      · subst same
        change Cache.Extends _ ((Caches.put _ _ at_side).on at_side)
        rw [Caches.on_put, if_pos rfl]
        exact .refl _
  exact kept.2 rfl

/-- A transform that somebody holds. As long as the spec is there no call is detached, whatever is
asked of the spec in between. Without the spec each call comes to an end, with what it came to
before or detached; and where no schema below comes round to itself, all is as before. -/
theorem transform_outlives {document : Json} {options : Options} {formats : Format.Registry}
    {s : Spec} (built : build document options formats = .ok s) (uses : List Use) (side : Side)
    (id : Id) (required : Bool) :
    let d := side.direction
    let t := (s.transform ((s.after uses).on side) id required).2
    (∀ more v,
      let now := (s.after (uses ++ .obtain side id required :: more)).on side
      Transform.call d { t with cache := now } true v = t.call d true v ∧
        ∀ schema, t.call d true v ≠ .error (.detached schema)) ∧
    (∀ v, (t.call d false v = t.call d true v ∨ ∃ schema, t.call d false v = .error (.detached schema)) ∧
      ∀ model, t.call d false v ≠ .error (.endless model)) ∧
    ((∀ k, ReflTransGen s.Edge (s.key id required) k → ¬ TransGen s.Edge k k) →
      ∀ v, t.call d false v = t.call d true v) := by
  intro d t
  obtain ⟨wanted, settled, orderly⟩ := s.orderly_after uses side
  have formed := build_wellFormed built
  obtain ⟨after, l, prepared, _, later, _, held, same⟩ := settled.prepare id required
  obtain ⟨kept, strong⟩ := settled.prepare_orderly orderly id required
  have extended := s.extends_after uses side id required
  have obtained : t = ⟨l, after, s.hops⟩ := by simp only [t, transform, prepared]
  rw [prepared] at kept strong extended
  change l = .strong (s.key id required) at strong
  rw [obtained]
  have alive : ∀ v, Transform.call d ⟨l, after, s.hops⟩ true v = s.resultAt d (s.key id required) v := by
    intro v
    rw [later.call_held held d v, same]
  refine ⟨fun more v => ⟨?_, fun schema => ?_⟩, fun v => ⟨?_, ?_⟩, fun free v => ?_⟩
  · obtain ⟨_, now⟩ := s.settled_after (uses ++ .obtain side id required :: more) side
    rw [alive, now.call_held (held.mono (extended more)) d v, same]
  · rw [alive]
    exact s.resultAt_not_detached d _ v schema
  · exact (transformBy d s.hops l v).run_lost after.follow_lost
  · exact later.lost_ends formed kept l v
  · rw [alive]
    subst strong
    exact later.call_free kept held free d v

theorem not_round_of_ascending {s : Spec}
    (ascending : ∀ k ∈ s.keys, ∀ next ∈ (s.plan k).links, k.schema < next.schema) (k : Key) :
    ¬ TransGen s.Edge k k := by
  have each : ∀ a b, s.Edge a b → a.schema < b.schema := by
    intro a b edge
    have linked := mem_links_iff.mpr edge
    by_cases member : a ∈ s.keys
    · exact ascending a member b linked
    · rw [links_of_not_mem_keys member] at linked
      cases linked
  have all : ∀ b, TransGen s.Edge k b → k.schema < b.schema := by
    intro b path
    induction path with
    | single edge => exact each _ _ edge
    | tail _ edge ih => exact ih.trans (each _ _ edge)
  intro round
  exact Nat.lt_irrefl _ (all k round)

/-- Trips with a day and the places where they stop. -/
def trips : Json :=
  .object [("definitions", .object [("Trip", .object [("type", .string "object"),
    ("properties", .object [
      ("day", .object [("type", .string "string"), ("format", .string "date")]),
      ("stops", .object [("type", .string "array"),
        ("items", .object [("type", .string "string")])])])])])]

theorem transform_outlives_of_trips : ∃ s, build trips .standard .standard = .ok s ∧
    ∀ v, (s.transform ((s.after [.unmarshal 0 .null]).on .unmarshal) 0 true).2.call
        Side.unmarshal.direction false v =
      (s.transform ((s.after [.unmarshal 0 .null]).on .unmarshal) 0 true).2.call
        Side.unmarshal.direction true v := by
  have ascending : (build trips .standard .standard).toOption.any (fun s => decide
      (∀ k ∈ s.keys, ∀ next ∈ (s.plan k).links, k.schema < next.schema)) = true := by
    decide +kernel
  obtain ⟨s, built, ascending⟩ := Except.exists_of_any ascending
  have free := not_round_of_ascending (of_decide_eq_true ascending)
  obtain ⟨_, _, same⟩ := transform_outlives built [.unmarshal 0 .null] .unmarshal 0 true
  exact ⟨s, built, same fun k _ => free k⟩

end Spec
end ApiPayload
