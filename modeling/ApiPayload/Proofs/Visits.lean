import ApiPayload.Proofs.Inversion

/-
Runs on record. A transform evaluated with every plan at hand and every value told where it is in the
input, so that the objects it comes by can be listed; the list changes nothing about the result.
-/
namespace ApiPayload

open Schema

variable {α β γ δ link : Type}

section Places

def itemsAt (p : Pointer) (i : Nat) : List α → List (Pointer × α)
  | [] => []
  | x :: xs => (p.item i, x) :: itemsAt p (i + 1) xs

def entriesAt (p : Pointer) (es : List (String × α)) : List (String × Pointer × α) :=
  es.map fun e => (e.1, p.child e.1, e.2)

theorem of_mem_itemsAt {p : Pointer} {i : Nat} {xs : List α} {x : Pointer × α}
    (member : x ∈ itemsAt p i xs) : x.2 ∈ xs := by
  induction xs generalizing i with
  | nil => cases member
  | cons y rest ih =>
    rcases List.mem_cons.mp member with rfl | member
    · exact List.mem_cons_self
    · exact List.mem_cons_of_mem y (ih member)

theorem of_mem_entriesAt {p : Pointer} {es : List (String × α)} {key : String} {x : Pointer × α}
    (member : (key, x) ∈ entriesAt p es) : (key, x.2) ∈ es := by
  obtain ⟨e, listed, same⟩ := List.mem_map.mp member
  cases same
  exact listed

/-- The same direction for values that come with their places. -/
def Direction.located (d : Direction α β) : Direction (Pointer × α) β where
  isNull v := d.isNull v.2
  null := d.null
  ofDefault := d.ofDefault
  pass v := d.pass v.2
  typeName v := d.typeName v.2
  describe v := d.describe v.2
  string? v := d.string? v.2
  list? v := (d.list? v.2).map (itemsAt v.1 0)
  list := d.list
  entries? v := (d.entries? v.2).map (entriesAt v.1)
  object := d.object
  convert c v := d.convert c v.2
  size v := d.size v.2
  size_item := by
    intro v xs x list member
    obtain ⟨items, found, rfl⟩ := Option.map_eq_some_iff.mp list
    exact d.size_item found (of_mem_itemsAt member)
  size_entry := by
    intro v es key x entries member
    obtain ⟨members, found, rfl⟩ := Option.map_eq_some_iff.mp entries
    exact d.size_entry found (of_mem_entriesAt member)
  entries_null := by
    intro v null
    rw [d.entries_null null]
    rfl

end Places

/-- An object on the way of an evaluation: under which schema and where, what is in it, and the
schema that it is handed to, if any. -/
structure Visit where
  node : Id
  path : Pointer
  members : List (String × Json)
  next : Option Id

abbrev Recorded (γ : Type) : Type := StateT (List Visit) (Except TransformError) γ

namespace Spec

/-- Objects go on record when the plan of an object schema takes them on. -/
def record (s : Spec) (v : Pointer × Json) (k : Key) : Recorded Unit :=
  match (s.plan k).core, v.2.object? with
  | .object _, some es => modify fun log =>
      log ++ [⟨k.schema, v.1, es, ((s.plan k).next? .unmarshal v.2).map (·.schema)⟩]
  | _, _ => pure ()

def settleRecorded (s : Spec) (v : Pointer × Json) : Nat → Key → Recorded (Plan Key)
  | fuel, k => do
    s.record v k
    match (s.plan k).next? .unmarshal v.2 with
    | none => pure (s.plan k)
    | some l =>
      match fuel with
      | 0 => throw (.endless (s.plan k).name)
      | fuel + 1 => settleRecorded s v fuel l

def recordedAt (s : Spec) : Nat → Key → Pointer × Json → Recorded Native
  | 0, _, _ => throw (.endless "")
  | fuel + 1, k, v => (s.plan k).guard Direction.unmarshal.located v do
    (← s.settleRecorded v s.hops k).apply Direction.unmarshal.located (recordedAt s fuel) v

/-- The evaluation of an unmarshalling transform with the objects that it comes by. -/
def recorded (s : Spec) (k : Key) (v : Json) : Recorded Native :=
  s.recordedAt (v.size + 1) k (.root, v)

end Spec

section Erasure

/-- Without its record a run is the plain one. -/
def Erases (x : Recorded γ) (y : Except TransformError γ) : Prop :=
  ∀ log, (x.run log).map Prod.fst = y

theorem erases_pure (a : γ) : Erases (pure a) (pure a) := fun _ => rfl

theorem erases_throw (e : TransformError) : Erases (throw e : Recorded γ) (throw e) := fun _ => rfl

theorem Erases.bind {x : Recorded γ} {y : Except TransformError γ} {f : γ → Recorded δ}
    {g : γ → Except TransformError δ} (first : Erases x y) (rest : ∀ a, Erases (f a) (g a)) :
    Erases (x >>= f) (y >>= g) := by
  intro log
  have here := first log
  rw [StateT.run_bind]
  cases ran : x.run log with
  | error e =>
    rw [ran] at here
    rw [← here]
    rfl
  | ok r =>
    rw [ran] at here
    rw [← here]
    exact rest r.1 r.2

theorem Erases.mapM {f : γ → Recorded β} {g : δ → Except TransformError β} {xs : List γ}
    {ys : List δ} (each : List.Forall₂ (fun x y => Erases (f x) (g y)) xs ys) :
    Erases (xs.mapM f) (ys.mapM g) := by
  induction each with
  | nil => exact erases_pure []
  | cons here _ ih =>
    rw [List.mapM_cons, List.mapM_cons]
    exact here.bind fun _ => ih.bind fun _ => erases_pure _

variable {p : Pointer} {v : Json}

theorem Erases.guard {q : Plan link} {x : Recorded Native} {y : Except TransformError Native}
    (whole : Erases x y) :
    Erases (q.guard Direction.unmarshal.located (p, v) x) (q.guard .unmarshal v y) := by
  have same : Direction.unmarshal.located.isNull (p, v) = Direction.unmarshal.isNull v := rfl
  unfold Plan.guard
  rw [same]
  split
  · split
    · exact erases_pure _
    · exact erases_throw _
    · exact erases_pure _
    · exact whole
  · exact whole

section Parts
variable {sub : link → Pointer × Json → Recorded Native}
  {plain : link → Json → Except TransformError Native}
  (parts : ∀ l p x, Erases (sub l (p, x)) (plain l x))
include parts

theorem erases_items (item : link) (p : Pointer) (i : Nat) (xs : List Json) :
    List.Forall₂ (fun a x => Erases (sub item a) (plain item x)) (itemsAt p i xs) xs := by
  induction xs generalizing i with
  | nil => exact .nil
  | cons x rest ih => exact .cons (parts item _ x) (ih (i + 1))

theorem erases_fields (o : ObjectPlan link) (p : Pointer) (es : List (String × Json)) :
    List.Forall₂ (fun a e => Erases (Plan.field Direction.unmarshal.located sub o a)
      (Plan.field .unmarshal plain o e)) (entriesAt p es) es := by
  induction es with
  | nil => exact .nil
  | cons e rest ih =>
    refine .cons ?_ ih
    simp only [Plan.field]
    cases Entries.get? e.1 o.properties with
    | none => exact erases_pure _
    | some l => exact (parts l (p.child e.1) e.2).bind fun _ => erases_pure _

theorem Erases.apply (q : Plan link) :
    Erases (q.apply Direction.unmarshal.located sub (p, v)) (q.apply .unmarshal plain v) := by
  cases core : q.core with
  | pass =>
    simp only [Plan.apply, core]
    exact erases_pure _
  | unknownType type =>
    simp only [Plan.apply, core]
    exact erases_throw _
  | unknownModel model =>
    simp only [Plan.apply, core]
    exact erases_throw _
  | convert c =>
    simp only [Plan.apply, core]
    have same : Direction.unmarshal.located.convert c (p, v) = Direction.unmarshal.convert c v := rfl
    rw [same]
    split
    · exact erases_pure _
    · exact erases_throw _
  | list schema item =>
    cases list : Direction.unmarshal.list? v with
    | none =>
      simp only [Plan.apply, core, Direction.located, list, Option.map_none]
      exact erases_throw _
    | some xs =>
      have located : Direction.unmarshal.located.list? (p, v) = some (itemsAt p 0 xs) := by
        simp only [Direction.located, list, Option.map_some]
      rw [Plan.apply_list core located, Plan.apply_list core list]
      exact (Erases.mapM (erases_items parts item p 0 xs)).bind fun _ => erases_pure _
  | object o =>
    cases entries : Direction.unmarshal.entries? v with
    | none =>
      simp only [Plan.apply, core, Direction.located, entries, Option.map_none]
      exact erases_throw _
    | some es =>
      have located : Direction.unmarshal.located.entries? (p, v) = some (entriesAt p es) := by
        simp only [Direction.located, entries, Option.map_some]
      rw [Plan.apply_object core located, Plan.apply_object core entries]
      exact (Erases.mapM (erases_fields parts o p es)).bind fun _ => erases_pure _

end Parts

end Erasure

namespace Spec

variable {s : Spec} {p : Pointer} {v : Json} {k last : Key} {n : Nat}

theorem erases_record (s : Spec) (v : Pointer × Json) (k : Key) {f : Unit → Recorded γ}
    {y : Except TransformError γ} (rest : Erases (f ()) y) : Erases (s.record v k >>= f) y := by
  have here : Erases (s.record v k) (pure ()) := by
    unfold record
    split
    · exact fun _ => rfl
    · exact erases_pure ()
  have whole := here.bind (f := f) (g := fun _ => y) fun _ => rest
  rwa [pure_bind] at whole

theorem erases_settle (s : Spec) (p : Pointer) (v : Json) (fuel : Nat) (k : Key) :
    Erases (s.settleRecorded (p, v) fuel k)
      (((s.plan k).settle .unmarshal v fuel).run fun l => .ok (s.plan l)) := by
  induction fuel generalizing k with
  | zero =>
    unfold settleRecorded Plan.settle
    refine s.erases_record (p, v) k ?_
    dsimp only
    cases (s.plan k).next? .unmarshal v with
    | none => exact erases_pure _
    | some l => exact erases_throw _
  | succ fuel ih =>
    unfold settleRecorded Plan.settle
    refine s.erases_record (p, v) k ?_
    dsimp only
    cases (s.plan k).next? .unmarshal v with
    | none => exact erases_pure _
    | some l => exact ih l

theorem erases_recordedAt (s : Spec) (fuel : Nat) (k : Key) (p : Pointer) (v : Json) :
    Erases (s.recordedAt fuel k (p, v))
      ((transformAt .unmarshal s.hops fuel k v).run fun l => .ok (s.plan l)) := by
  induction fuel generalizing k p v with
  | zero => exact erases_throw _
  | succ fuel ih =>
    have opened : (transformAt .unmarshal s.hops (fuel + 1) k v).run (fun l => .ok (s.plan l)) =
        (s.plan k).guard .unmarshal v
          ((((s.plan k).settle .unmarshal v s.hops).run fun l => .ok (s.plan l)) >>= fun q =>
            q.apply .unmarshal (fun l x =>
              (transformAt .unmarshal s.hops fuel l x).run fun l => .ok (s.plan l)) v) := by
      simp only [← Plan.apply_run, ← Ask.run_bind, ← Plan.guard_run]
      rfl
    rw [opened, recordedAt]
    exact .guard ((s.erases_settle p v s.hops k).bind fun q => .apply (fun l p x => ih l p x) q)

/-- The record takes nothing from a run and adds nothing to it, whether it fails or not. -/
theorem recorded_erases (s : Spec) (k : Key) (v : Json) :
    Erases (s.recorded k v) (s.resultAt .unmarshal k v) :=
  s.erases_recordedAt (v.size + 1) k .root v

end Spec

section Success

/-- A run that succeeds adds these visits to its record. -/
def Runs (x : Recorded γ) (a : γ) (visits : List Visit) : Prop :=
  ∀ log, x.run log = .ok (a, log ++ visits)

theorem runs_pure (a : γ) : Runs (pure a) a [] := by
  intro log
  rw [List.append_nil]
  rfl

theorem Runs.bind {x : Recorded γ} {f : γ → Recorded δ} {a : γ} {b : δ} {us vs : List Visit}
    (first : Runs x a us) (rest : Runs (f a) b vs) : Runs (x >>= f) b (us ++ vs) := by
  intro log
  rw [StateT.run_bind, first log, ← List.append_assoc]
  exact rest (log ++ us)

theorem Runs.map {x : Recorded γ} {a : γ} {visits : List Visit} (run : Runs x a visits) (f : γ → δ) :
    Runs (x >>= fun a => pure (f a)) (f a) visits := by
  have whole := run.bind (f := fun a => pure (f a)) (runs_pure (f a))
  rwa [List.append_nil] at whole

theorem Runs.mapM {f : γ → Recorded δ} {visits : γ → List Visit} {xs : List γ} {ys : List δ}
    (each : List.Forall₂ (fun x y => Runs (f x) y (visits x)) xs ys) :
    Runs (xs.mapM f) ys (xs.flatMap visits) := by
  induction each with
  | nil => exact runs_pure []
  | @cons x y xs ys here _ ih =>
    rw [List.mapM_cons, List.flatMap_cons]
    exact here.bind (ih.map fun ys => y :: ys)

end Success
end ApiPayload
