import ApiPayload.Proofs.Threads

/-
What threads keep between them, whoever takes the next step: the workers of each side share a cache
as a workshop, and every call is on its way to the result it would have if nobody else were there.
-/
namespace ApiPayload

open Schema

variable {s : Spec} {γ : Type} {c : Cache} {cs after : Caches} {t next : Thread}

/-- The result of a transform with all plans at hand. -/
def Spec.result (s : Spec) (side : Side) (id : Id) (required : Bool) (v : side.In) :
    Except TransformError side.Out :=
  (transformBy side.direction s.hops (s.key id required) v).run fun k => .ok (s.plan k)

/-- What is left of a call ends with `r`, whatever links will be known by then. -/
def Leads (s : Spec) (c : Cache) (rest : Ask Link γ) (r : Except TransformError γ) : Prop :=
  ∃ keyed : Ask Key γ,
    (∀ known : Link → Prop, (∀ l, c.Holds l → known l) → Mirrors known Eq rest keyed) ∧
    keyed.run (fun k => .ok (s.plan k)) = r

namespace Leads

variable {l : Link} {r : Except TransformError γ}

theorem mono {rest : Ask Link γ} {more : Cache} (h : Leads s c rest r) (e : c.Extends more) :
    Leads s more rest r := by
  obtain ⟨keyed, mirrors, ends⟩ := h
  exact ⟨keyed, fun known holds => mirrors known fun l held => holds l (held.mono e), ends⟩

theorem call {α β : Type} (held : c.Holds l) (d : Direction α β) (v : α) :
    Leads s c (transformBy d s.hops l v)
      ((transformBy d s.hops l.key v).run fun k => .ok (s.plan k)) :=
  ⟨_, fun _ holds => .transform (holds l held), rfl⟩

theorem needed {go : Plan Link → Ask Link γ} (h : Leads s c (.need l go) r) : c.Holds l := by
  obtain ⟨keyed, mirrors, _⟩ := h
  cases mirrors c.Holds fun _ held => held with
  | need here _ => exact here

theorem follow {go : Plan Link → Ask Link γ} {p : Plan Link} (h : Leads s c (.need l go) r)
    (faithful : c.Faithful s) (ready : c.plan? l.key = some p) : Leads s c (go p) r := by
  obtain ⟨keyed, mirrors, ends⟩ := h
  obtain ⟨same, links⟩ := faithful l.key p ready
  cases mirrors c.Holds fun _ held => held with
  | @need _ _ keyed _ _ =>
    refine ⟨keyed (s.plan l.key), fun known holds => ?_, ends⟩
    cases mirrors known holds with
    | need _ go =>
      rw [← same]
      exact go p fun k member => holds k (links k member)

theorem done {found : Except TransformError γ} (h : Leads s c (.done found) r) : found = r := by
  obtain ⟨keyed, mirrors, ends⟩ := h
  cases mirrors c.Holds fun _ held => held with
  | done same => rw [same]; exact ends
  | fail e => exact ends

end Leads

namespace Thread

/-- Links come from the cache and lead where they were asked for; calls are on their way to the
right results, and those that ended have them. -/
structure Sound (s : Spec) (cs : Caches) (t : Thread) : Prop where
  held : ∀ h ∈ t.held, (cs.on h.side).Holds h.link ∧ h.link.key = s.key h.id h.required
  goal : ∀ side id required w, t.now = .preparing side id required w →
    w.goal? = some (s.key id required)
  called : ∀ side h v rest, t.now = .calling side h v rest →
    Leads s (cs.on side) rest (s.result side h.id h.required v)
  outcomes : ∀ o ∈ t.outcomes, o.result = s.result o.side o.id o.required o.value

theorem Turn.extends (m : Turn s cs t after next) (side : Side) :
    (cs.on side).Extends (after.on side) := by
  cases m with
  | @work at_side _ _ w next c _ _ _ did =>
    rw [Caches.on_put]
    split
    · rename_i same
      subst side
      have moved := (w.step_move s (cs.on at_side)).extends
      rwa [did] at moved
    · exact .refl _
  | _ => exact .refl _

theorem Sound.mono (h : t.Sound s cs) (e : ∀ side, (cs.on side).Extends (after.on side)) :
    t.Sound s after where
  held own member := ⟨(h.held own member).1.mono (e _), (h.held own member).2⟩
  goal := h.goal
  called side own v rest now := (h.called side own v rest now).mono (e side)
  outcomes := h.outcomes

theorem Sound.turn (h : t.Sound s cs) (faithful : ∀ side, (cs.on side).Faithful s)
    (works : ∀ side w, t.worker? side = some w → w.Sound s (cs.on side))
    (m : Turn s cs t after next) : next.Sound s after := by
  have kept := h.mono m.extends
  cases m with
  | hire =>
    refine ⟨h.held, ?_, by simp, h.outcomes⟩
    intro side id required w now
    cases now
    rfl
  | skip => exact ⟨h.held, by simp, by simp, h.outcomes⟩
  | @call side n v tasks held outcomes own mine same =>
    refine ⟨h.held, by simp, ?_, h.outcomes⟩
    intro at_side at_own at_v rest now
    cases now
    obtain ⟨holds, key⟩ := h.held own mine
    rw [same] at holds
    rw [Spec.result, ← key]
    exact .call holds side.direction v
  | @work side id required w next c tasks held outcomes did =>
    refine ⟨kept.held, ?_, by simp, h.outcomes⟩
    intro at_side at_id at_required at_w now
    cases now
    have goal := (w.step_move s (cs.on side)).goal
    rw [did] at goal
    exact goal.trans (h.goal side id required w rfl)
  | @receive side id required l tasks held outcomes =>
    refine ⟨?_, by simp, by simp, h.outcomes⟩
    intro own member
    rcases List.mem_append.mp member with old | new
    · exact h.held own old
    · obtain rfl := List.mem_singleton.mp new
      have answered := (works side ⟨[], .answer l⟩ (by simp [worker?])).answered l rfl
      exact ⟨answered, Option.some.inj (h.goal side id required _ rfl)⟩
  | @follow side own v l go p tasks held outcomes ready =>
    refine ⟨h.held, by simp, ?_, h.outcomes⟩
    intro at_side at_own at_v rest now
    cases now
    exact (h.called side own v _ rfl).follow (faithful side) ready
  | @finish side own v r tasks held outcomes =>
    refine ⟨h.held, by simp, by simp, ?_⟩
    intro o member
    rcases List.mem_append.mp member with old | new
    · exact h.outcomes o old
    · obtain rfl := List.mem_singleton.mp new
      exact (h.called side own v _ rfl).done

theorem Turn.requests (m : Turn s cs t after next) (side : Side) :
    next.requests side = t.requests side := by
  cases m with
  | @hire at_side id required tasks held outcomes =>
    by_cases same : at_side = side <;>
      simp [Thread.requests, requestsOf, heldBy, asking, Task.request?, same]
  | @receive at_side id required l tasks held outcomes =>
    by_cases same : at_side = side <;> simp [Thread.requests, heldBy, asking, same]
  | _ => rfl

theorem Turn.shop (m : Turn s cs t after next) {side : Side} {wanted : Key → Prop}
    (before behind : List Worker)
    (h : Workshop s wanted (cs.on side) (before ++ (t.worker? side).toList ++ behind))
    (asked : ∀ r ∈ t.requests side, wanted (s.key r.1 r.2)) :
    Workshop s wanted (after.on side) (before ++ (next.worker? side).toList ++ behind) := by
  cases m with
  | @hire at_side id required tasks held outcomes =>
    by_cases same : at_side = side
    · subst at_side
      simp only [worker?, if_true, Option.toList_some, Option.toList_none, List.append_nil,
        List.append_assoc, List.singleton_append] at h ⊢
      refine Workshop.hire before behind h (Spec.reached_root (asked (id, required) ?_))
      simp [Thread.requests, requestsOf, Task.request?]
    · simpa [worker?, same] using h
  | @work at_side id required w next c tasks held outcomes did =>
    by_cases same : at_side = side
    · subst at_side
      simp only [worker?, if_true, Option.toList_some, List.append_assoc,
        List.singleton_append] at h ⊢
      have stepped := Workshop.step before behind h
      rw [did] at stepped
      rwa [Caches.on_put, if_pos rfl]
    · simpa [worker?, same, Caches.on_put] using h
  | @receive at_side id required l tasks held outcomes =>
    by_cases same : at_side = side
    · subst at_side
      simp only [worker?, if_true, Option.toList_some, Option.toList_none, List.append_nil,
        List.append_assoc, List.singleton_append] at h ⊢
      exact Workshop.dismiss before behind h rfl
    · simpa [worker?, same] using h
  | _ => exact h

theorem Turn.fills (m : Turn s cs t after next)
    (works : ∀ side w, t.worker? side = some w → w.Sound s (cs.on side))
    (open_slots : ∀ side, ∀ k ∈ t.owned side, (cs.on side).isOpen k = true) (side : Side) (k : Key) :
    ((after.on side).isResolved k).toNat =
      ((cs.on side).isResolved k).toNat + t.filling.count (side, k) := by
  cases m with
  | @work at_side id required w next c tasks held outcomes did =>
    have own : worker? at_side ⟨tasks, held, outcomes, .preparing at_side id required w⟩ = some w := by
      simp [worker?]
    have moved := w.step_move s (cs.on at_side)
    rw [did] at moved
    have filled : filling ⟨tasks, held, outcomes, .preparing at_side id required w⟩ =
        w.filling?.toList.map (at_side, ·) := rfl
    rw [Caches.on_put, filled]
    by_cases same : at_side = side
    · subst at_side
      have effect := moved.filled (works side w own)
        (fun k mine => open_slots side k (by simpa [owned, own] using mine)) k
      rw [if_pos rfl, effect]
      cases w.filling? with
      | none => rfl
      | some other => simp [List.count_singleton]
    · rw [if_neg same]
      cases w.filling? with
      | none => rfl
      | some other => simp [same]
  | _ => rfl

end Thread

namespace Crew

def workers (side : Side) (threads : List Thread) : List Worker :=
  threads.filterMap (Thread.worker? side)

def wanted (plans : List (List Task)) (side : Side) : List (Id × Bool) :=
  plans.flatMap (requestsOf side)

structure Kept (s : Spec) (plans : List (List Task)) (crew : Crew) : Prop where
  shop : ∀ side,
    Workshop s (s.Wanted (wanted plans side)) (crew.caches.on side) (workers side crew.threads)
  sound : ∀ t ∈ crew.threads, t.Sound s crew.caches
  requests : ∀ side, crew.threads.map (Thread.requests side) = plans.map (requestsOf side)
  fills : ∀ side k, crew.fills.count (side, k) = ((crew.caches.on side).isResolved k).toNat

variable {plans : List (List Task)} {crew : Crew}

theorem workers_split (side : Side) (before behind : List Thread) (t : Thread) :
    workers side (before ++ t :: behind) =
      workers side before ++ (t.worker? side).toList ++ workers side behind := by
  simp only [workers, List.filterMap_append, List.filterMap_cons, List.append_assoc]
  cases t.worker? side <;> rfl

theorem kept_start (s : Spec) (plans : List (List Task)) : Kept s plans (start plans) := by
  have nobody : ∀ side, workers side (start plans).threads = [] := by
    intro side
    refine List.filterMap_eq_nil_iff.mpr fun t member => ?_
    obtain ⟨tasks, _, rfl⟩ := List.mem_map.mp member
    rfl
  refine ⟨fun side => ?_, ?_, ?_, ?_⟩
  · rw [nobody]
    cases side <;> exact Workshop.empty s _
  · intro t member
    obtain ⟨tasks, _, rfl⟩ := List.mem_map.mp member
    exact ⟨by simp [Thread.start], by simp [Thread.start], by simp [Thread.start],
      by simp [Thread.start]⟩
  · intro side
    rw [start, List.map_map]
    rfl
  · intro side k
    cases side <;> rfl

theorem Kept.within_plan (h : Kept s plans crew) {side : Side} (member : t ∈ crew.threads)
    {r : Id × Bool} (asked : r ∈ t.requests side) : r ∈ wanted plans side := by
  have listed : t.requests side ∈ plans.map (requestsOf side) := by
    rw [← h.requests side]
    exact List.mem_map.mpr ⟨t, member, rfl⟩
  obtain ⟨tasks, plan, same⟩ := List.mem_map.mp listed
  exact List.mem_flatMap.mpr ⟨tasks, plan, by rwa [same]⟩

theorem Kept.works (h : Kept s plans crew) (member : t ∈ crew.threads) (side : Side) (w : Worker)
    (works : t.worker? side = some w) : w.Sound s (crew.caches.on side) :=
  (h.shop side).sound w (List.mem_filterMap.mpr ⟨t, member, works⟩)

theorem Kept.open_slots (h : Kept s plans crew) (member : t ∈ crew.threads) (side : Side) (k : Key)
    (mine : k ∈ t.owned side) : (crew.caches.on side).isOpen k = true := by
  obtain ⟨w, works, held⟩ := List.mem_flatMap.mp mine
  have listed : w ∈ workers side crew.threads :=
    List.mem_filterMap.mpr ⟨t, member, Option.mem_toList.mp works⟩
  exact (h.shop side).isOpen_of_owned listed held

theorem Kept.turn {before behind : List Thread} {fills : List (Side × Key)}
    (h : Kept s plans ⟨cs, before ++ t :: behind, fills⟩) (m : Thread.Turn s cs t after next) :
    Kept s plans ⟨after, before ++ next :: behind, fills ++ t.filling⟩ := by
  have here : t ∈ before ++ t :: behind := by simp
  refine ⟨fun side => ?_, ?_, fun side => ?_, fun side k => ?_⟩
  · have shop := h.shop side
    rw [workers_split] at shop ⊢
    refine m.shop _ _ shop fun r asked => ?_
    exact ⟨r, h.within_plan here asked, rfl⟩
  · obtain ⟨sound, others⟩ := forall_mem_middle.mp h.sound
    have moved := sound.turn (fun side => (h.shop side).faithful) (h.works here) m
    exact forall_mem_middle.mpr ⟨moved, fun u member => (others u member).mono m.extends⟩
  · have requests := h.requests side
    simp only [List.map_append, List.map_cons] at requests ⊢
    rw [m.requests side, requests]
  · have effect := m.fills (h.works here) (h.open_slots here) side k
    rw [List.count_append, h.fills side k]
    exact effect.symm

theorem step_turn (s : Spec) (crew : Crew) (i : Nat) :
    crew.step s i = crew ∨ ∃ before t behind cs next, crew.threads = before ++ t :: behind ∧
      Thread.Turn s crew.caches t cs next ∧
      crew.step s i = ⟨cs, before ++ next :: behind, crew.fills ++ t.filling⟩ := by
  unfold step
  cases found : crew.threads[i]? with
  | none => exact .inl rfl
  | some t =>
    cases stepped : t.step s crew.caches with
    | none => simp [stepped]
    | some result =>
      obtain ⟨cs, next⟩ := result
      obtain ⟨inside, rfl⟩ := List.getElem?_eq_some_iff.mp found
      refine .inr ⟨crew.threads.take i, _, crew.threads.drop (i + 1), cs, next, ?_,
        Thread.step_turn stepped, ?_⟩
      · rw [← List.drop_eq_getElem_cons inside, List.take_append_drop]
      · simp only [stepped]
        rw [List.set_eq_take_append_cons_drop, if_pos inside]

theorem Kept.step (h : Kept s plans crew) (i : Nat) : Kept s plans (crew.step s i) := by
  rcases step_turn s crew i with same | ⟨before, t, behind, cs, next, split, turn, same⟩
  · rwa [same]
  · rw [same]
    obtain ⟨caches, threads, fills⟩ := crew
    subst split
    exact h.turn turn

/-- In every state that a crew reaches, in whatever order its threads take their steps. -/
theorem kept_run (s : Spec) (plans : List (List Task)) (schedule : List Nat) :
    Kept s plans (run s plans schedule) :=
  List.foldlRecOn (motive := Kept s plans) schedule (Crew.step s) (kept_start s plans)
    fun _ h i _ => h.step i

end Crew
end ApiPayload
