import Mathlib.Data.List.Forall2
import ApiPayload.Proofs.Agreement

/-
What a transform comes to while every plan is at hand. Its result at a value is that of the plan
where tags let the value stay, with the results at the parts. An error is about some part of the
value, unless a plan could not be had or tags went round without end.
-/
namespace ApiPayload

open Schema

variable {α β γ δ ε link : Type}

namespace Except

theorem bind_eq_ok {x : Except ε γ} {f : γ → Except ε δ} {b : δ} :
    (x >>= f) = .ok b ↔ ∃ a, x = .ok a ∧ f a = .ok b := by
  cases x with
  | error e =>
    refine ⟨fun found => ?_, fun ⟨a, found, _⟩ => ?_⟩
    · cases found
    · cases found
  | ok a =>
    refine ⟨fun found => ⟨a, rfl, found⟩, fun ⟨b, same, found⟩ => ?_⟩
    cases same
    exact found

theorem bind_eq_error {x : Except ε γ} {f : γ → Except ε δ} {e : ε} :
    (x >>= f) = .error e ↔ x = .error e ∨ ∃ a, x = .ok a ∧ f a = .error e := by
  cases x with
  | error other =>
    refine ⟨fun found => .inl ?_, fun found => ?_⟩
    · cases found
      rfl
    · rcases found with found | ⟨a, found, _⟩
      · cases found
        rfl
      · cases found
  | ok a =>
    refine ⟨fun found => .inr ⟨a, rfl, found⟩, fun found => ?_⟩
    rcases found with found | ⟨b, same, found⟩
    · cases found
    · cases same
      exact found

theorem mapError_eq_ok {f : ε → δ} {x : Except ε γ} {a : γ} : x.mapError f = .ok a ↔ x = .ok a := by
  cases x <;> simp [Except.mapError]

theorem mapM_eq_ok {f : γ → Except ε δ} {xs : List γ} {ys : List δ} :
    xs.mapM f = .ok ys ↔ List.Forall₂ (fun x y => f x = .ok y) xs ys := by
  induction xs generalizing ys with
  | nil =>
    rw [List.forall₂_nil_left_iff, List.mapM_nil]
    exact ⟨fun found => by cases found; rfl, fun empty => by rw [empty]; rfl⟩
  | cons x rest ih =>
    simp only [List.mapM_cons, bind_eq_ok, List.forall₂_cons_left_iff, ih]
    constructor
    · rintro ⟨b, first, bs, others, found⟩
      cases found
      exact ⟨b, bs, first, others, rfl⟩
    · rintro ⟨b, bs, first, others, rfl⟩
      exact ⟨b, first, bs, others, rfl⟩

theorem mapM_ok_of_forall {f : γ → Except ε δ} {xs : List γ} (h : ∀ x ∈ xs, ∃ y, f x = .ok y) :
    ∃ ys, xs.mapM f = .ok ys := by
  induction xs with
  | nil => exact ⟨[], rfl⟩
  | cons x rest ih =>
    obtain ⟨y, first⟩ := h x List.mem_cons_self
    obtain ⟨ys, others⟩ := ih fun z member => h z (List.mem_cons_of_mem x member)
    exact ⟨y :: ys, mapM_eq_ok.mpr (.cons first (mapM_eq_ok.mp others))⟩

theorem mapM_eq_error {f : γ → Except ε δ} {xs : List γ} {e : ε} (h : xs.mapM f = .error e) :
    ∃ x ∈ xs, f x = .error e := by
  induction xs with
  | nil => cases h
  | cons x rest ih =>
    rw [List.mapM_cons, bind_eq_error] at h
    rcases h with first | ⟨b, _, later⟩
    · exact ⟨x, List.mem_cons_self, first⟩
    · rw [bind_eq_error] at later
      rcases later with later | ⟨bs, _, none⟩
      · obtain ⟨y, member, found⟩ := ih later
        exact ⟨y, List.mem_cons_of_mem x member, found⟩
      · cases none

theorem exists_of_isOk {x : Except ε γ} (h : x.isOk = true) : ∃ a, x = .ok a := by
  cases x with
  | error e => cases h
  | ok a => exact ⟨a, rfl⟩

theorem exists_of_any {x : Except ε γ} {f : γ → Bool} (h : x.toOption.any f = true) :
    ∃ a, x = .ok a ∧ f a = true := by
  cases x with
  | error e => cases h
  | ok a => exact ⟨a, rfl, h⟩

end Except

namespace Ask

theorem run_bind (follow : link → Except TransformError (Plan link)) (x : Ask link γ)
    (f : γ → Ask link δ) : (x >>= f).run follow = x.run follow >>= fun a => (f a).run follow := by
  induction x with
  | done r => cases r <;> rfl
  | need l next ih =>
    rw [bind_need, run, run]
    cases follow l with
    | error e => rfl
    | ok p => exact ih p

theorem run_mapM (follow : link → Except TransformError (Plan link)) (f : γ → Ask link δ)
    (xs : List γ) : (xs.mapM f).run follow = xs.mapM fun x => (f x).run follow := by
  induction xs with
  | nil => rfl
  | cons x rest ih =>
    simp only [List.mapM_cons, run_bind, ih]
    rfl

/-- If plans can be had as before or not at all, the result is as before or that one could not. -/
theorem run_lost {follow lost : link → Except TransformError (Plan link)}
    (h : ∀ l, lost l = follow l ∨ ∃ schema, lost l = .error (.detached schema)) (x : Ask link γ) :
    x.run lost = x.run follow ∨ ∃ schema, x.run lost = .error (.detached schema) := by
  induction x with
  | done r => exact .inl rfl
  | need l next ih =>
    rw [run, run]
    rcases h l with same | ⟨schema, gone⟩
    · rw [same]
      cases follow l with
      | error e => exact .inl rfl
      | ok p => exact ih p
    · rw [gone]
      exact .inr ⟨schema, rfl⟩

end Ask

/-- Errors about a value, as opposed to the way to the plan for it. -/
def TransformError.isAboutValue : TransformError → Bool
  | detached _ | endless _ => false
  | _ => true

/-- The value at fault, as an error shows it. -/
def TransformError.shown? : TransformError → Option String
  | notList _ _ value | notObject _ _ value | unknownType _ value | unknownModel _ value
  | format _ value _ => some value
  | nullNotAllowed _ | detached _ | endless _ => none

/-- What is wrong is the value; where one is shown, it is this one. -/
def Direction.Blames (d : Direction α β) (v : α) (e : TransformError) : Prop :=
  e.isAboutValue = true ∧ ∀ text, e.shown? = some text → text = d.describe v

namespace Plan

variable {d : Direction α β} {v : α}

section Parts
variable {m : Type → Type} [Monad m] [MonadExceptOf TransformError m]

/-- An entry of an object by the plan of its property, or unchanged if there is none. -/
def field (d : Direction α β) (sub : link → α → m β) (o : ObjectPlan link) (e : String × α) :
    m (String × β) :=
  match Entries.get? e.1 o.properties with
  | some l => do return (e.1, ← sub l e.2)
  | none => pure (e.1, d.pass e.2)

theorem apply_list {p : Plan link} {schema : String} {item : link} {xs : List α}
    (core : p.core = .list schema item) (list : d.list? v = some xs) (sub : link → α → m β) :
    p.apply d sub v = do return d.list (← xs.mapM (sub item)) := by
  simp only [apply, core, list]

theorem apply_object {p : Plan link} {o : ObjectPlan link} {es : List (String × α)}
    (core : p.core = .object o) (entries : d.entries? v = some es) (sub : link → α → m β) :
    p.apply d sub v = do
      let fields ← es.mapM (field d sub o)
      return d.object o.typed (fields ++ missing d o fields) := by
  simp only [apply, core, entries]
  rfl

end Parts

theorem apply_run (follow : link → Except TransformError (Plan link)) (sub : γ → α → Ask link β)
    (p : Plan γ) :
    (p.apply d sub v).run follow = p.apply d (fun l x => (sub l x).run follow) v := by
  obtain ⟨onNull, core⟩ := p
  cases core with
  | convert c =>
    simp only [apply]
    split <;> rfl
  | list schema item =>
    simp only [apply]
    split
    · rfl
    · rw [Ask.run_bind, Ask.run_mapM]
      rfl
  | object o =>
    simp only [apply]
    split
    · rfl
    · rw [Ask.run_bind, Ask.run_mapM]
      refine congrArg (· >>= _) (congrArg (List.mapM · _) (funext fun e => ?_))
      split
      · rw [Ask.run_bind]
        rfl
      · rfl
  | _ => rfl

theorem guard_run (follow : link → Except TransformError (Plan link)) (p : Plan γ) (x : Ask link β) :
    (p.guard d v x).run follow = p.guard d v (x.run follow) := by
  unfold guard
  split
  · split <;> rfl
  · rfl

theorem guard_error {p : Plan link} {whole : Except TransformError β} {e : TransformError}
    (h : p.guard d v whole = .error e) : d.Blames v e ∨ whole = .error e := by
  unfold guard at h
  split at h
  · split at h
    · cases h
    · cases h
      exact .inl ⟨rfl, nofun⟩
    · cases h
    · exact .inr h
  · exact .inr h

section Errors

variable {p : Plan link} {sub : link → α → Except TransformError β} {e : TransformError}

theorem apply_list_error {schema : String} {item : link} {xs : List α}
    (core : p.core = .list schema item) (list : d.list? v = some xs)
    (h : p.apply d sub v = .error e) : ∃ x ∈ xs, sub item x = .error e := by
  rw [apply_list core list] at h
  rcases Except.bind_eq_error.mp h with failed | ⟨ys, _, done⟩
  · exact Except.mapM_eq_error failed
  · cases done

theorem apply_object_error {o : ObjectPlan link} {es : List (String × α)}
    (core : p.core = .object o) (entries : d.entries? v = some es)
    (h : p.apply d sub v = .error e) : ∃ name x l, (name, x) ∈ es ∧
      Entries.get? name o.properties = some l ∧ sub l x = .error e := by
  rw [apply_object core entries] at h
  rcases Except.bind_eq_error.mp h with failed | ⟨fields, _, done⟩
  · obtain ⟨⟨name, x⟩, member, failed⟩ := Except.mapM_eq_error failed
    unfold field at failed
    split at failed
    · rename_i l property
      rcases Except.bind_eq_error.mp failed with failed | ⟨w, _, done⟩
      · exact ⟨name, x, l, member, property, failed⟩
      · cases done
    · cases failed
  · cases done

/-- Taking a value apart adds no errors but those about the value. -/
theorem apply_error (h : p.apply d sub v = .error e) :
    d.Blames v e ∨ ∃ l ∈ p.links, ∃ x, d.size x < d.size v ∧ sub l x = .error e := by
  cases core : p.core with
  | pass =>
    simp only [apply, core] at h
    cases h
  | unknownType type =>
    simp only [apply, core] at h
    cases h
    exact .inl ⟨rfl, fun _ shown => (Option.some.inj shown).symm⟩
  | unknownModel model =>
    simp only [apply, core] at h
    cases h
    exact .inl ⟨rfl, fun _ shown => (Option.some.inj shown).symm⟩
  | convert c =>
    simp only [apply, core] at h
    split at h
    · cases h
    · cases h
      exact .inl ⟨rfl, fun _ shown => (Option.some.inj shown).symm⟩
  | list schema item =>
    cases list : d.list? v with
    | none =>
      simp only [apply, core, list] at h
      cases h
      exact .inl ⟨rfl, fun _ shown => (Option.some.inj shown).symm⟩
    | some xs =>
      obtain ⟨x, member, failed⟩ := apply_list_error core list h
      have linked : item ∈ p.links := by simp [links, core, Core.links]
      exact .inr ⟨item, linked, x, d.size_item list member, failed⟩
  | object o =>
    cases entries : d.entries? v with
    | none =>
      simp only [apply, core, entries] at h
      cases h
      exact .inl ⟨rfl, fun _ shown => (Option.some.inj shown).symm⟩
    | some es =>
      obtain ⟨name, x, l, member, property, failed⟩ := apply_object_error core entries h
      exact .inr ⟨l, property_mem core property, x, d.size_entry entries member, failed⟩

end Errors

end Plan

theorem transformBy_run {d : Direction α β} {hops : Nat}
    (follow : link → Except TransformError (Plan link)) (l : link) (v : α) :
    (transformBy d hops l v).run follow = follow l >>= fun p =>
      p.guard d v ((p.settle d v hops).run follow >>= fun q =>
        q.apply d (fun k x => (transformBy d hops k x).run follow) v) := by
  have opened : transformBy d hops l v = .need l fun p => p.guard d v
      (p.settle d v hops >>= fun q => q.apply d (transformAt d hops (d.size v)) v) := rfl
  rw [opened, Ask.run]
  refine congrArg (follow l >>= ·) (funext fun p => ?_)
  rw [Plan.guard_run, Ask.run_bind]
  refine congrArg (p.guard d v) (congrArg (_ >>= ·) (funext fun q => ?_))
  rw [Plan.apply_run]
  refine q.apply_congr fun k _ x smaller => ?_
  exact congrArg (Ask.run follow) (transformAt_fuel smaller (Nat.lt_succ_self _))

namespace Spec

variable {s : Spec} {d : Direction α β} {v : α} {k last : Key} {n : Nat} {w : β}

/-- The result at a key with every plan of the spec at hand. -/
def resultAt (s : Spec) (d : Direction α β) (k : Key) (v : α) : Except TransformError β :=
  (transformBy d s.hops k v).run fun l => .ok (s.plan l)

/-- What was asked of a spec before makes no difference to results. -/
theorem call_after (s : Spec) (uses : List Use) (side : Side) (d : Direction α β) (id : Id)
    (required : Bool) (v : α) : (s.transform ((s.after uses).on side) id required).2.call d true v =
      s.resultAt d (s.key id required) v := by
  obtain ⟨_, settled⟩ := s.settled_after uses side
  exact settled.call_eq d id required v

theorem unmarshal_after (s : Spec) (uses : List Use) (id : Id) (v : Json) :
    (s.unmarshal (s.after uses).unmarshal id v).2 = s.resultAt .unmarshal (s.key id true) v :=
  s.call_after uses .unmarshal .unmarshal id true v

theorem marshal_after (s : Spec) (uses : List Use) (id : Id) (v : Native) :
    (s.marshal (s.after uses).marshal id v).2 = s.resultAt .marshal (s.key id true) v :=
  s.call_after uses .marshal .marshal id true v

theorem resultAt_eq (s : Spec) (d : Direction α β) (k : Key) (v : α) :
    s.resultAt d k v = (s.plan k).guard d v
      (((s.plan k).settle d v s.hops).run (fun l => .ok (s.plan l)) >>= fun q =>
        q.apply d (s.resultAt d) v) :=
  transformBy_run _ k v

theorem settle_run (s : Spec) (d : Direction α β) (v : α) (fuel : Nat) (k : Key) :
    (∃ n last, n ≤ fuel ∧ s.Settles d v n k last ∧
      ((s.plan k).settle d v fuel).run (fun l => .ok (s.plan l)) = .ok (s.plan last)) ∨
    (∀ n last, s.Settles d v n k last → fuel < n) ∧
      ∃ model, ((s.plan k).settle d v fuel).run (fun l => .ok (s.plan l)) =
        .error (.endless model) := by
  have either := ((s.plan k).settle d v fuel).outcome_run s.plan
  rcases s.settle_outcome d v fuel k with ⟨n, last, le, settles, found⟩ | ⟨far, nothing⟩
  · rcases either with ⟨_, _, none⟩ | ⟨some, _⟩
    · rw [found] at none
      cases none
    · exact .inl ⟨n, last, le, settles, (Option.some.inj (found.symm.trans some)).symm⟩
  · rcases either with ⟨model, runs, _⟩ | ⟨some, _⟩
    · exact .inr ⟨far, model, runs⟩
    · rw [nothing] at some
      cases some

theorem Settles.last_unique {m : Nat} {other : Key} (h : s.Settles d v n k last)
    (also : s.Settles d v m k other) : last = other := by
  induction h generalizing m with
  | stay stays =>
    cases also with
    | stay => rfl
    | choose chosen => rw [stays] at chosen; cases chosen
  | choose chosen _ ih =>
    cases also with
    | stay stays => rw [stays] at chosen; cases chosen
    | choose chosen' rest =>
      obtain rfl := Option.some.inj (chosen.symm.trans chosen')
      exact ih rest

/-- Nothing but a plan that could not be had makes a transform detached. -/
theorem resultAt_not_detached (s : Spec) (d : Direction α β) (k : Key) (v : α) (schema : String) :
    s.resultAt d k v ≠ .error (.detached schema) := by
  induction size : d.size v using Nat.strongRecOn generalizing k v with
  | ind bound ih =>
    subst size
    intro failed
    rw [resultAt_eq] at failed
    rcases Plan.guard_error failed with own | failed
    · cases own.1
    · rcases Except.bind_eq_error.mp failed with unsettled | ⟨q, _, failed⟩
      · rcases s.settle_run d v s.hops k with ⟨_, _, _, _, found⟩ | ⟨_, model, found⟩
        · rw [found] at unsettled
          cases unsettled
        · rw [found] at unsettled
          cases unsettled
      · rcases Plan.apply_error failed with own | ⟨l, _, x, smaller, failed⟩
        · cases own.1
        · exact ih _ smaller l x rfl failed

theorem stays_of_null (null : d.isNull v = true) (k : Key) : s.Settles d v 0 k k := by
  refine .stay ?_
  cases chosen : (s.plan k).next? d v with
  | none => rfl
  | some next =>
    rw [Plan.not_null_of_next? chosen] at null
    cases null

theorem WellFormed.resultAt_settled (h : s.WellFormed) (settles : s.Settles d v n k last) :
    s.resultAt d k v = (s.plan k).guard d v ((s.plan last).apply d (s.resultAt d) v) := by
  rw [resultAt_eq]
  rcases s.settle_run d v s.hops k with ⟨m, other, _, same, found⟩ | ⟨far, _⟩
  · rw [found]
    rw [same.last_unique settles]
    rfl
  · have near := settles.le_hops h
    have beyond := far n last settles
    omega

/-- A value that has a result stays somewhere. -/
theorem settles_of_ok (found : s.resultAt d k v = .ok w) : ∃ n last, s.Settles d v n k last := by
  cases null : d.isNull v with
  | true => exact ⟨0, k, stays_of_null null k⟩
  | false =>
    rw [resultAt_eq, Plan.guard_not_null null] at found
    obtain ⟨q, settled, _⟩ := Except.bind_eq_ok.mp found
    rcases s.settle_run d v s.hops k with ⟨n, last, _, settles, _⟩ | ⟨_, model, endless⟩
    · exact ⟨n, last, settles⟩
    · rw [endless] at settled
      cases settled

end Spec
end ApiPayload
