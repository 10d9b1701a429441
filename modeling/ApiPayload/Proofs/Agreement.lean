import ApiPayload.Proofs.Interpreter
import ApiPayload.Proofs.Limits
import ApiPayload.Proofs.Requests

/-
Transforms and the interpreter agree, whatever was asked of a spec before.
-/
namespace ApiPayload

open Schema

variable {α β : Type}

namespace Spec

theorem mem_of_subtype? {s : Spec} {d : Direction α β} {m below : Model} {es : List (String × α)}
    (named : s.subtype? d m es = some below) : below ∈ s.models := by
  simp only [subtype?, Option.bind_eq_bind, Option.bind_eq_some_iff] at named
  obtain ⟨mark, _, x, _, tag, _, found⟩ := named
  exact List.mem_of_find?_eq_some found

theorem WellFormed.model_of_next? {s : Spec} (h : s.WellFormed) {d : Direction α β} {k next : Key}
    {v : α} (chosen : (s.plan k).next? d v = some next) :
    next ∈ s.models.map fun m => s.key m.schema true := by
  obtain ⟨shape, o, es, below, _, _, _, named, rfl⟩ := h.next?_plan chosen
  obtain ⟨m, _, named⟩ := Option.bind_eq_some_iff.mp named
  exact List.mem_map.mpr ⟨below, mem_of_subtype? named, rfl⟩

/-- Tags of a value lead from a schema to one where it stays, in so many choices. -/
inductive Settles (s : Spec) (d : Direction α β) (v : α) : Nat → Key → Key → Prop where
  | stay {k : Key} (stays : (s.plan k).next? d v = none) : Settles s d v 0 k k
  | choose {n : Nat} {k next last : Key} (chosen : (s.plan k).next? d v = some next)
      (rest : Settles s d v n next last) : Settles s d v (n + 1) k last

namespace Settles

variable {s : Spec} {d : Direction α β} {v : α} {n m : Nat} {k last : Key}

theorem stays (h : Settles s d v n k last) : (s.plan last).next? d v = none := by
  induction h with
  | stay stays => exact stays
  | choose _ _ ih => exact ih

theorem unique (h : Settles s d v n k last) (other : Settles s d v m k last) : n = m := by
  induction h generalizing m with
  | stay stays =>
    cases other with
    | stay => rfl
    | choose chosen => rw [stays] at chosen; cases chosen
  | choose chosen _ ih =>
    cases other with
    | stay stays => rw [stays] at chosen; cases chosen
    | choose chosen' rest =>
      obtain rfl := Option.some.inj (chosen.symm.trans chosen')
      rw [ih rest]

/-- All choices of one value are different schemas of models. -/
theorem choices (formed : s.WellFormed) (h : Settles s d v n k last) : ∃ chosen : List Key,
    chosen.length = n ∧ chosen.Nodup ∧ (∀ c ∈ chosen, c ∈ s.models.map fun m => s.key m.schema true) ∧
    ∀ c ∈ chosen, ∃ left < n, Settles s d v left c last := by
  induction h with
  | stay => exact ⟨[], rfl, List.nodup_nil, by simp, by simp⟩
  | @choose n k next last here rest ih =>
    obtain ⟨chosen, length, distinct, models, left⟩ := ih
    refine ⟨next :: chosen, by simp [length], List.nodup_cons.mpr ⟨?_, distinct⟩, ?_, ?_⟩
    · -- a schema chosen again would have to be at two distances from the last one
      intro again
      obtain ⟨fewer, less, shorter⟩ := left next again
      have same := rest.unique shorter
      omega
    · intro c member
      rcases List.mem_cons.mp member with rfl | member
      · exact formed.model_of_next? here
      · exact models c member
    · intro c member
      rcases List.mem_cons.mp member with rfl | member
      · exact ⟨n, Nat.lt_succ_self n, rest⟩
      · obtain ⟨fewer, less, shorter⟩ := left c member
        exact ⟨fewer, Nat.lt_succ_of_lt less, shorter⟩

theorem le_models (formed : s.WellFormed) (h : Settles s d v n k last) : n ≤ s.models.length := by
  obtain ⟨chosen, rfl, distinct, models, _⟩ := h.choices formed
  have few := distinct.length_le_of_subset models
  rwa [List.length_map] at few

theorem le_hops (formed : s.WellFormed) (h : Settles s d v n k last) : n ≤ s.hops :=
  Nat.le_succ_of_le (h.le_models formed)

end Settles

/-- Following tags with some fuel finds the schema where the value stays, unless it is further. -/
theorem settle_outcome (s : Spec) (d : Direction α β) (v : α) (fuel : Nat) (k : Key) :
    (∃ n last, n ≤ fuel ∧ s.Settles d v n k last ∧
      ((s.plan k).settle d v fuel).outcome s.plan = pure (s.plan last)) ∨
    ((∀ n last, s.Settles d v n k last → fuel < n) ∧
      ((s.plan k).settle d v fuel).outcome s.plan = none) := by
  induction fuel generalizing k with
  | zero =>
    cases chosen : (s.plan k).next? d v with
    | none =>
      refine .inl ⟨0, k, Nat.le_refl 0, .stay chosen, ?_⟩
      rw [Plan.settle, chosen]
      rfl
    | some next =>
      refine .inr ⟨fun n last h => ?_, ?_⟩
      · cases h with
        | stay stays => rw [stays] at chosen; cases chosen
        | choose => exact Nat.succ_pos _
      · rw [Plan.settle, chosen]
        rfl
  | succ fuel ih =>
    cases chosen : (s.plan k).next? d v with
    | none =>
      refine .inl ⟨0, k, Nat.zero_le _, .stay chosen, ?_⟩
      rw [Plan.settle, chosen]
      rfl
    | some next =>
      have opened : ((s.plan k).settle d v (fuel + 1)).outcome s.plan =
          ((s.plan next).settle d v fuel).outcome s.plan := by
        rw [Plan.settle, chosen]
        rfl
      rw [opened]
      rcases ih next with ⟨n, last, le, settles, same⟩ | ⟨far, same⟩
      · exact .inl ⟨n + 1, last, Nat.succ_le_succ le, .choose chosen settles, same⟩
      · refine .inr ⟨fun n last h => ?_, same⟩
        cases h with
        | stay stays => rw [stays] at chosen; cases chosen
        | choose chosen' rest =>
          obtain rfl := Option.some.inj (chosen.symm.trans chosen')
          exact Nat.succ_lt_succ (far _ last rest)

theorem WellFormed.next_concrete {s : Spec} (h : s.WellFormed) {d : Direction α β} {k next : Key}
    {v : α} (chosen : (s.plan k).next? d v = some next) : s.concrete next.schema = next.schema := by
  obtain ⟨_, _, _, below, _, _, _, _, rfl⟩ := h.next?_plan chosen
  exact h.concrete_concrete below.schema

/-- A value that tags never let stay is never read. -/
theorem WellFormed.settles_of_read {s : Spec} (h : s.WellFormed) {d : Direction α β} {fuel : Nat}
    {k : Key} {v : α} {r : Except TransformError β} (concrete : s.concrete k.schema = k.schema)
    (read : s.read d fuel k v = some r) : ∃ n last, s.Settles d v n k last := by
  induction fuel generalizing k with
  | zero => cases read
  | succ fuel ih =>
    cases chosen : (s.plan k).next? d v with
    | none => exact ⟨0, k, .stay chosen⟩
    | some next =>
      rw [h.read_next concrete chosen] at read
      obtain ⟨n, last, rest⟩ := ih (h.next_concrete chosen) read
      exact ⟨n + 1, last, .choose chosen rest⟩

theorem WellFormed.read_limit {s : Spec} (h : s.WellFormed) {d : Direction α β} {v : α} {n : Nat}
    {k last : Key} {parts : Key → α → ExceptT TransformError Option β}
    (settles : s.Settles d v n k last) (concrete : s.concrete k.schema = k.schema)
    (below : ∀ l ∈ (s.plan last).links, ∀ x, d.size x < d.size v →
      Limit (fun fuel => s.read d fuel l x) (parts l x)) :
    Limit (fun fuel => s.read d fuel k v)
      ((s.plan last).guard d v ((s.plan last).apply d parts v)) := by
  refine .shift rfl ?_
  induction settles with
  | stay stays =>
    simp only [h.read_apply concrete stays]
    exact .guard (.apply _ below) _
  | choose chosen _ ih =>
    simp only [h.read_next concrete chosen]
    exact .shift rfl (ih (h.next_concrete chosen) below)

theorem key_of_link {s : Spec} {k next : Key} (linked : next ∈ (s.plan k).links) :
    ∃ id required, next = s.key id required := by
  cases mem_links_iff.mp linked <;> exact ⟨_, _, rfl⟩

/-- Reading a value directly gives what its transform gives, with all plans at hand. -/
theorem WellFormed.interpret_limit {s : Spec} (h : s.WellFormed) (d : Direction α β) (id : Id)
    (required : Bool) (v : α) :
    Limit (fun fuel => s.interpret d fuel id required v)
      ((transformBy d s.hops (s.key id required) v).outcome s.plan) := by
  induction size : d.size v using Nat.strongRecOn generalizing id required v with
  | ind bound ih =>
    subst size
    have concrete := h.concrete_concrete id
    simp only [← h.read_key]
    rw [transformBy_outcome]
    rcases s.settle_outcome d v s.hops (s.key id required) with
      ⟨n, last, _, settles, found⟩ | ⟨far, found⟩
    · have below : ∀ l ∈ (s.plan last).links, ∀ x, d.size x < d.size v →
          Limit (fun fuel => s.read d fuel l x) ((transformBy d s.hops l x).outcome s.plan) := by
        intro l linked x smaller
        obtain ⟨own, own_required, rfl⟩ := key_of_link linked
        simp only [h.read_key]
        exact ih _ smaller own own_required x rfl
      have limit := h.read_limit settles concrete below
      rw [found, pure_bind]
      cases settles with
      | stay => exact limit
      | choose chosen rest =>
        have kept := Plan.not_null_of_next? chosen
        rwa [Plan.guard_not_null kept] at limit ⊢
    · -- too many choices for different models, so they go round
      have unread : ∀ fuel, s.read d fuel (s.key id required) v = none := by
        intro fuel
        cases read : s.read d fuel (s.key id required) v with
        | none => rfl
        | some r =>
          obtain ⟨n, last, settles⟩ := h.settles_of_read concrete read
          have near := settles.le_hops h
          have beyond := far n last settles
          omega
      have leads : (s.plan (s.key id required)).next? d v ≠ none := by
        intro stays
        have beyond := far 0 _ (.stay stays)
        omega
      obtain ⟨next, chosen⟩ := Option.ne_none_iff_exists'.mp leads
      rw [found, Plan.guard_not_null (Plan.not_null_of_next? chosen)]
      exact .never unread

end Spec

/-- Whenever some fuel is enough for a reading, its result is that of the call; where none is, the
call goes round models for ever. -/
def Agrees {γ : Type} (reading : Nat → Option (Except TransformError γ))
    (result : Except TransformError γ) : Prop :=
  (∀ fuel r, reading fuel = some r → result = r) ∧
    ((∀ fuel, reading fuel = none) ↔ ∃ model, result = .error (.endless model))

theorem Ask.outcome_run {link γ : Type} (plans : link → Plan link) (x : Ask link γ) :
    (∃ model, x.run (fun l => .ok (plans l)) = .error (.endless model) ∧ x.outcome plans = none) ∨
      x.outcome plans = some (x.run fun l => .ok (plans l)) ∧
        ∀ model, x.run (fun l => .ok (plans l)) ≠ .error (.endless model) := by
  induction x with
  | done r =>
    cases r with
    | ok a => exact .inr ⟨rfl, fun _ same => nomatch same⟩
    | error e =>
      cases e with
      | endless model => exact .inl ⟨model, rfl, rfl⟩
      | _ => exact .inr ⟨rfl, fun _ same => nomatch same⟩
  | need l next ih => exact ih (plans l)

theorem Limit.agrees {link γ : Type} {f : Nat → ExceptT TransformError Option γ}
    {plans : link → Plan link} {x : Ask link γ} (h : Limit f (x.outcome plans)) :
    Agrees f (x.run fun l => .ok (plans l)) := by
  rcases x.outcome_run plans with ⟨model, runs, nothing⟩ | ⟨ends, finite⟩
  · have unread : ∀ fuel, f fuel = none := by
      intro fuel
      cases found : f fuel with
      | none => rfl
      | some r =>
        have same := h.sound fuel r found
        rw [nothing] at same
        cases same
    refine ⟨fun fuel r found => ?_, fun _ => ⟨model, runs⟩, fun _ => unread⟩
    rw [unread fuel] at found
    cases found
  · refine ⟨fun fuel r found => ?_, fun unread => ?_, fun ⟨model, runs⟩ => absurd runs (finite model)⟩
    · exact Option.some.inj (ends.symm.trans (h.sound fuel r found))
    · obtain ⟨n, later⟩ := h.reached _ ends
      have found := later n (Nat.le_refl n)
      rw [unread n] at found
      cases found

section Calls
variable {s : Spec} {wanted : Key → Prop} {c : Cache}

/-- Where nobody works, every link that was handed out leads to the plan of its key. -/
theorem Settled.follow (h : Settled s wanted c) {l : Link} (held : c.Holds l) :
    ∃ p, c.follow true l = .ok p ∧ Keyed c.Holds p (s.plan l.key) := by
  obtain ⟨p, filled⟩ := Cache.isResolved_iff.mp (h.shop.resolved held.taken)
  refine ⟨p, ?_, h.shop.faithful l.key p filled⟩
  cases l <;> simp only [Link.key] at filled <;> simp [Cache.follow, Link.key, filled]

theorem Settled.call_eq (h : Settled s wanted c) (d : Direction α β) (id : Id) (required : Bool)
    (v : α) : (s.transform c id required).2.call d true v =
      (transformBy d s.hops (s.key id required) v).run fun k => .ok (s.plan k) := by
  obtain ⟨after, l, prepared, _, settled, _, held, same⟩ := h.prepare id required
  simp only [Spec.transform, prepared, Transform.call, ← same]
  exact (Mirrors.transform held).run_eq fun l held => settled.follow held

end Calls

theorem Caches.on_put (cs : Caches) (c : Cache) (side other : Side) :
    (cs.put c side).on other = if side = other then c else cs.on other := by
  cases side <;> cases other <;> rfl

inductive Use where
  | obtain (side : Side) (id : Id) (required : Bool)
  | unmarshal (id : Id) (v : Json)
  | marshal (id : Id) (v : Native)

namespace Spec

def use (s : Spec) (cs : Caches) : Use → Caches
  | .obtain side id required => cs.put (s.transform (cs.on side) id required).1 side
  | .unmarshal id v => cs.put (s.unmarshal cs.unmarshal id v).1 .unmarshal
  | .marshal id v => cs.put (s.marshal cs.marshal id v).1 .marshal

def after (s : Spec) (uses : List Use) : Caches := uses.foldl s.use .empty

/-- What each preparation keeps at the cache of its side is kept by every use of a spec. -/
theorem uses_keep {s : Spec} (keeps : Side → Cache → Prop)
    (each : ∀ side c id required, keeps side c → keeps side (s.prepare c id required).1)
    {cs : Caches} (h : ∀ side, keeps side (cs.on side)) (uses : List Use) (side : Side) :
    keeps side ((uses.foldl s.use cs).on side) := by
  have prepared : ∀ (cs : Caches), (∀ side, keeps side (cs.on side)) → ∀ (at_side : Side) (id : Id)
      (required : Bool) (side : Side),
      keeps side ((cs.put (s.prepare (cs.on at_side) id required).1 at_side).on side) := by
    intro cs h at_side id required side
    rw [Caches.on_put]
    split
    · rename_i same
      subst side
      exact each at_side _ id required (h at_side)
    · exact h side
  refine List.foldlRecOn (motive := fun cs => ∀ side, keeps side (cs.on side)) uses s.use h ?_ side
  intro cs h u _
  cases u with
  | obtain at_side id required => exact prepared cs h at_side id required
  | unmarshal id v => exact prepared cs h .unmarshal id true
  | marshal id v => exact prepared cs h .marshal id true

theorem settled_after (s : Spec) (uses : List Use) (side : Side) :
    ∃ wanted, Settled s wanted ((s.after uses).on side) := by
  refine uses_keep (fun _ c => ∃ wanted, Settled s wanted c) ?_ ?_ uses side
  · rintro side c id required ⟨wanted, settled⟩
    obtain ⟨after, l, prepared, _, later, _⟩ := settled.prepare id required
    rw [prepared]
    exact ⟨_, later⟩
  · intro side
    refine ⟨fun _ => False, ?_⟩
    cases side <;> exact settled_empty s

/-- Whatever was asked of a spec before, a transform gives what the interpreter gives. -/
theorem transform_agrees {document : Json} {options : Options} {formats : Format.Registry} {s : Spec}
    (built : build document options formats = .ok s) (uses : List Use) (side : Side) (id : Id)
    (required : Bool) (v : side.In) :
    Agrees (fun fuel => s.interpret side.direction fuel id required v)
      ((s.transform ((s.after uses).on side) id required).2.call side.direction true v) := by
  obtain ⟨wanted, settled⟩ := s.settled_after uses side
  rw [settled.call_eq]
  exact ((build_wellFormed built).interpret_limit side.direction id required v).agrees

/-- Pets that are cats or just pets, with friends that are pets. -/
def pets : Json :=
  .object [("definitions", .object [
    ("Pet", .object [("type", .string "object"), ("discriminator", .string "kind"),
      ("properties", .object [("kind", .object [("type", .string "string")]),
        ("friend", .object [("$ref", .string "#/definitions/Pet")])])]),
    ("Cat", .object [("allOf", .array [.object [("$ref", .string "#/definitions/Pet")],
      .object [("properties", .object [("lives", .object [("type", .string "integer"),
        ("default", .null)])])]])])])]

theorem transform_agrees_on_pets : ∃ s, build pets .standard .standard = .ok s ∧
    Agrees
      (fun fuel => s.interpret Side.unmarshal.direction fuel 0 true (.object [("kind", .string "Cat")]))
      ((s.transform ((s.after [.marshal 3 .null, .obtain .unmarshal 2 false]).on .unmarshal) 0
        true).2.call Side.unmarshal.direction true (.object [("kind", .string "Cat")])) := by
  cases built : build pets .standard .standard with
  | error e =>
    have read : (build pets .standard .standard).isOk = true := by decide +kernel
    rw [built] at read
    cases read
  | ok s => exact ⟨s, rfl, transform_agrees built _ .unmarshal 0 true _⟩

end Spec
end ApiPayload
