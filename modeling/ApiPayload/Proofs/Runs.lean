import ApiPayload.Proofs.Links
import ApiPayload.Transform.Run

/-
Runs that ask for plans. A run is the same computation whether the plans behind its links are
looked up all at once or handed out one by one, and whether links are links or only keys.
-/
namespace ApiPayload

variable {α β γ δ ε link : Type}

namespace Ask

theorem bind_need (l : link) (next : Plan link → Ask link γ) (f : γ → Ask link δ) :
    (need l next >>= f : Ask link δ) = need l fun p => next p >>= f := rfl

theorem bind_pure' (x : Ask link γ) : (x >>= fun a => done (.ok a)) = x := by
  induction x with
  | done r => cases r <;> rfl
  | need l next ih =>
    rw [bind_need]
    exact congrArg (need l) (funext ih)

theorem bind_assoc' (x : Ask link γ) (f : γ → Ask link δ) (g : δ → Ask link ε) :
    x >>= f >>= g = x >>= fun a => f a >>= g := by
  induction x with
  | done r => cases r <;> rfl
  | need l next ih => exact congrArg (need l) (funext ih)

instance : LawfulMonad (Ask link) :=
  LawfulMonad.mk' _ bind_pure' (fun _ _ => rfl) bind_assoc'

/-- The result, if going round without end is none. -/
def outcome (plans : link → Plan link) : Ask link γ → ExceptT TransformError Option γ
  | done (.error (.endless _)) => none
  | done r => some r
  | need l next => (next (plans l)).outcome plans

theorem outcome_pure (plans : link → Plan link) (a : γ) :
    (pure a : Ask link γ).outcome plans = pure a := rfl

theorem outcome_bind (plans : link → Plan link) (x : Ask link γ) (f : γ → Ask link δ) :
    (x >>= f).outcome plans = x.outcome plans >>= fun a => (f a).outcome plans := by
  induction x with
  | done r =>
    cases r with
    | ok a => rfl
    | error e => cases e <;> rfl
  | need l next ih => exact ih (plans l)

theorem outcome_mapM (plans : link → Plan link) (f : γ → Ask link δ) (xs : List γ) :
    (xs.mapM f).outcome plans = xs.mapM fun x => (f x).outcome plans := by
  induction xs with
  | nil => rfl
  | cons x rest ih => simp only [List.mapM_cons, outcome_bind, outcome_pure, ih]

end Ask

namespace Plan

variable {d : Direction α β} {v : α}

theorem next?_map (f : γ → δ) (p : Plan γ) : (p.map f).next? d v = (p.next? d v).map f := by
  obtain ⟨onNull, core⟩ := p
  cases core with
  | object o =>
    cases entries : d.entries? v with
    | none => simp [next?, map, Core.map, entries]
    | some es =>
      simp only [next?, map, Core.map, ObjectPlan.map, entries, Option.bind_some,
        ObjectPlan.choice]
      cases o.discriminator with
      | none => rfl
      | some tag =>
        cases found : Entries.get? tag es with
        | none => simp [found]
        | some x =>
          cases text : d.string? x <;> simp [found, text, Entries.get?_mapValues]
  | _ => rfl

theorem next?_mem {p : Plan link} {l : link} (h : p.next? d v = some l) : l ∈ p.links := by
  obtain ⟨onNull, core⟩ := p
  cases core with
  | object o =>
    obtain ⟨es, _, h⟩ := Option.bind_eq_some_iff.mp h
    simp only [ObjectPlan.choice, Option.bind_eq_bind, Option.bind_eq_some_iff] at h
    obtain ⟨tag, _, x, _, name, _, chosen⟩ := h
    exact List.mem_append_right _ (List.mem_map.mpr ⟨_, Entries.mem_of_get? chosen, rfl⟩)
  | _ => cases h

theorem not_null_of_next? {p : Plan link} {l : link} (h : p.next? d v = some l) :
    d.isNull v = false := by
  cases null : d.isNull v with
  | false => rfl
  | true =>
    have no_entries := d.entries_null null
    obtain ⟨onNull, core⟩ := p
    cases core <;> simp [next?, no_entries] at h

theorem property_mem {o : ObjectPlan link} {name : String} {l : link} {p : Plan link}
    (core : p.core = .object o) (h : Entries.get? name o.properties = some l) : l ∈ p.links := by
  rw [links, core]
  exact List.mem_append_left _ (List.mem_map.mpr ⟨_, Entries.mem_of_get? h, rfl⟩)

theorem missing_map (f : γ → δ) (o : ObjectPlan γ) (fields : List (String × β)) :
    missing d (o.map f) fields = missing d o fields := by
  simp only [missing, ObjectPlan.map, Entries.mapValues, List.filterMap_map]
  rfl

section Traversal
variable {m : Type → Type} [Monad m] [LawfulMonad m]

theorem mapM_congr {f g : γ → m δ} {xs : List γ} (h : ∀ x ∈ xs, f x = g x) :
    xs.mapM f = xs.mapM g := by
  induction xs with
  | nil => rfl
  | cons x rest ih =>
    rw [List.mapM_cons, List.mapM_cons, h x List.mem_cons_self,
      ih fun y member => h y (List.mem_cons_of_mem x member)]

/-- Only parts of a value are handed on, and only to links of the plan. -/
theorem apply_congr [MonadExceptOf TransformError m] {sub other : link → α → m β} (p : Plan link)
    (h : ∀ l ∈ p.links, ∀ x, d.size x < d.size v → sub l x = other l x) :
    p.apply d sub v = p.apply d other v := by
  cases core : p.core with
  | list schema item =>
    have linked : item ∈ p.links := by simp [links, core, Core.links]
    cases list : d.list? v with
    | none => simp only [apply, core, list]
    | some xs =>
      have parts : xs.mapM (sub item) = xs.mapM (other item) :=
        mapM_congr fun x member => h item linked x (d.size_item list member)
      simp only [apply, core, list, parts]
  | object o =>
    cases entries : d.entries? v with
    | none => simp only [apply, core, entries]
    | some es =>
      simp only [apply, core, entries]
      refine congrArg (· >>= _) (mapM_congr fun e member => ?_)
      have smaller := d.size_entry entries (show (e.1, e.2) ∈ es from member)
      split
      · rename_i l found
        rw [h l (property_mem core found) e.2 smaller]
      · rfl
  | _ => simp only [apply, core]

end Traversal

theorem apply_outcome (plans : link → Plan link) (sub : γ → α → Ask link β) (p : Plan γ) :
    (p.apply d sub v).outcome plans = p.apply d (fun l x => (sub l x).outcome plans) v := by
  obtain ⟨onNull, core⟩ := p
  cases core with
  | pass => rfl
  | unknownType type => rfl
  | unknownModel model => rfl
  | convert c => simp only [apply]; split <;> rfl
  | list schema item =>
    simp only [apply]
    split
    · rfl
    · rw [Ask.outcome_bind, Ask.outcome_mapM]
      rfl
  | object o =>
    simp only [apply]
    split
    · rfl
    · rw [Ask.outcome_bind, Ask.outcome_mapM]
      refine congrArg (· >>= _) (congrArg (List.mapM · _) (funext fun e => ?_))
      split
      · rw [Ask.outcome_bind]
        rfl
      · rfl

theorem guard_not_null {m : Type → Type} [Monad m] [MonadExceptOf TransformError m]
    (kept : d.isNull v = false) (p : Plan link) (whole : m β) : p.guard d v whole = whole := by
  rw [guard, kept]
  rfl

theorem guard_outcome (plans : link → Plan link) (p : Plan γ) (x : Ask link β) :
    (p.guard d v x).outcome plans = p.guard d v (x.outcome plans) := by
  unfold guard
  split
  · split <;> rfl
  · rfl

end Plan

section Depth
variable {d : Direction α β} {hops : Nat}

/-- Fuel beyond the size of a value is never used. -/
theorem transformAt_fuel {n m : Nat} {l : link} {v : α} (hn : d.size v < n) (hm : d.size v < m) :
    transformAt d hops n l v = transformAt d hops m l v := by
  induction n generalizing m l v with
  | zero => omega
  | succ n ih =>
    cases m with
    | zero => omega
    | succ m =>
      simp only [transformAt]
      refine congrArg (Ask.need l) (funext fun p => congrArg (p.guard d v) ?_)
      refine congrArg (_ >>= ·) (funext fun q => q.apply_congr fun k _ x smaller => ?_)
      exact ih (by omega) (by omega)

theorem transformBy_outcome (plans : link → Plan link) (l : link) (v : α) :
    (transformBy d hops l v).outcome plans =
      (plans l).guard d v (((plans l).settle d v hops).outcome plans >>= fun q =>
        q.apply d (fun k x => (transformBy d hops k x).outcome plans) v) := by
  have opened : transformBy d hops l v = .need l fun p => p.guard d v
      (p.settle d v hops >>= fun q => q.apply d (transformAt d hops (d.size v)) v) := rfl
  rw [opened, Ask.outcome, Plan.guard_outcome, Ask.outcome_bind]
  refine congrArg ((plans l).guard d v) (congrArg (_ >>= ·) (funext fun q => ?_))
  rw [Plan.apply_outcome]
  refine q.apply_congr fun k _ x smaller => ?_
  exact congrArg (Ask.outcome plans) (transformAt_fuel smaller (Nat.lt_succ_self _))

end Depth

/-- Two runs that differ in nothing but links and their keys: they ask for the same keys, known
links on one side, and end alike whatever known links the answers hold. -/
inductive Mirrors (known : Link → Prop) (same : γ → δ → Prop) : Ask Link γ → Ask Key δ → Prop where
  | done {a : γ} {b : δ} (h : same a b) : Mirrors known same (.done (.ok a)) (.done (.ok b))
  | fail (e : TransformError) : Mirrors known same (.done (.error e)) (.done (.error e))
  | need {l : Link} {next : Plan Link → Ask Link γ} {keyed : Plan Key → Ask Key δ} (here : known l)
      (go : ∀ p, (∀ k ∈ p.links, known k) → Mirrors known same (next p) (keyed (p.map Link.key))) :
      Mirrors known same (.need l next) (.need l.key keyed)

/-- A plan of known links and the same plan with keys. -/
def Keyed (known : Link → Prop) (p : Plan Link) (q : Plan Key) : Prop :=
  p.map Link.key = q ∧ ∀ l ∈ p.links, known l

namespace Mirrors

variable {known : Link → Prop} {d : Direction α β} {v : α}

theorem bind {γ' δ' : Type} {same : γ → δ → Prop} {same' : γ' → δ' → Prop} {x : Ask Link γ}
    {y : Ask Key δ} {f : γ → Ask Link γ'} {g : δ → Ask Key δ'} (h : Mirrors known same x y)
    (rest : ∀ a b, same a b → Mirrors known same' (f a) (g b)) :
    Mirrors known same' (x >>= f) (y >>= g) := by
  induction h with
  | done h => exact rest _ _ h
  | fail e => exact .fail e
  | need here go ih => exact .need here ih

theorem mapM {f : γ → Ask Link δ} {g : γ → Ask Key δ} {xs : List γ}
    (h : ∀ x ∈ xs, Mirrors known Eq (f x) (g x)) : Mirrors known Eq (xs.mapM f) (xs.mapM g) := by
  induction xs with
  | nil => exact .done rfl
  | cons x rest ih =>
    rw [List.mapM_cons, List.mapM_cons]
    refine (h x List.mem_cons_self).bind fun a b same => ?_
    refine (ih fun y member => h y (List.mem_cons_of_mem x member)).bind fun as bs sames => ?_
    rw [same, sames]
    exact .done rfl

theorem settle {p : Plan Link} {q : Plan Key} (h : Keyed known p q) (n : Nat) :
    Mirrors known (Keyed known) (p.settle d v n) (q.settle d v n) := by
  obtain ⟨rfl, links⟩ := h
  induction n generalizing p with
  | zero =>
    unfold Plan.settle
    rw [Plan.next?_map]
    cases p.next? d v with
    | none => exact .done ⟨rfl, links⟩
    | some l =>
      have name : (p.map Link.key).name = p.name := by
        obtain ⟨onNull, core⟩ := p
        cases core <;> rfl
      rw [name]
      exact .fail _
  | succ n ih =>
    unfold Plan.settle
    rw [Plan.next?_map]
    cases chosen : p.next? d v with
    | none => exact .done ⟨rfl, links⟩
    | some l => exact .need (links l (Plan.next?_mem chosen)) fun p held => ih held

theorem apply {p : Plan Link} {q : Plan Key} (h : Keyed known p q)
    {sub : Link → α → Ask Link β} {keyed : Key → α → Ask Key β}
    (parts : ∀ l x, known l → Mirrors known Eq (sub l x) (keyed l.key x)) :
    Mirrors known Eq (p.apply d sub v) (q.apply d keyed v) := by
  obtain ⟨rfl, links⟩ := h
  cases core : p.core with
  | list schema item =>
    have held : known item := links item (by simp [Plan.links, core, Core.links])
    simp only [Plan.apply, Plan.map, core, Core.map]
    split
    · exact .fail _
    · refine (mapM fun x _ => parts item x held).bind fun a b same => ?_
      rw [same]
      exact .done rfl
  | object o =>
    simp only [Plan.apply, Plan.map, core, Core.map]
    split
    · exact .fail _
    · refine (mapM fun e _ => ?_).bind fun a b same => ?_
      · simp only [ObjectPlan.map, Entries.get?_mapValues]
        cases own : Entries.get? e.1 o.properties with
        | none => exact .done rfl
        | some l =>
          refine (parts l e.2 (links l (Plan.property_mem core own))).bind fun a b same => ?_
          rw [same]
          exact .done rfl
      · rw [same, Plan.missing_map]
        exact .done rfl
  | convert c =>
    simp only [Plan.apply, Plan.map, core, Core.map]
    split
    · exact .done rfl
    · exact .fail _
  | pass =>
    simp only [Plan.apply, Plan.map, core, Core.map]
    exact .done rfl
  | unknownType type =>
    simp only [Plan.apply, Plan.map, core, Core.map]
    exact .fail _
  | unknownModel model =>
    simp only [Plan.apply, Plan.map, core, Core.map]
    exact .fail _

theorem guard {p : Plan Link} {x : Ask Link β} {y : Ask Key β} (h : Mirrors known Eq x y) :
    Mirrors known Eq (p.guard d v x) ((p.map Link.key).guard d v y) := by
  simp only [Plan.guard, Plan.map]
  split
  · split
    · exact .done rfl
    · exact .fail _
    · exact .done rfl
    · exact h
  · exact h

theorem transform {hops n : Nat} {l : Link} (h : known l) :
    Mirrors known Eq (transformAt d hops n l v) (transformAt d hops n l.key v) := by
  induction n generalizing l v with
  | zero => exact .fail _
  | succ n ih =>
    refine .need h fun p links => guard ?_
    refine (settle ⟨rfl, links⟩ hops).bind fun q q' same => ?_
    exact apply same fun k x held => ih held

/-- Where every known link leads to the plan of its key, both runs end with the same result. -/
theorem run_eq {x : Ask Link γ} {y : Ask Key γ} (h : Mirrors known Eq x y)
    {plans : Key → Plan Key} {follow : Link → Except TransformError (Plan Link)}
    (led : ∀ l, known l → ∃ p, follow l = .ok p ∧ Keyed known p (plans l.key)) :
    x.run follow = y.run fun k => .ok (plans k) := by
  induction h with
  | done h => rw [h]; rfl
  | fail e => rfl
  | need here go ih =>
    rename_i l next keyed
    obtain ⟨p, found, keys, links⟩ := led l here
    simp only [Ask.run, found]
    exact (ih p links).trans (by rw [keys]; rfl)

end Mirrors

end ApiPayload
