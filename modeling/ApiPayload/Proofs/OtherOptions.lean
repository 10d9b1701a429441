import ApiPayload.Proofs.Results

/-
One document under different options. Options are not looked at while a document is read, so its
nodes and models are the same, and plans differ at most in how finished objects are made: tags lead
to the same places.
-/
namespace ApiPayload

open Schema

variable {α β link : Type}

/-- Changes of an object plan that concern neither its tag nor the entries of its objects. -/
structure ObjectPlan.Keeps (f : ObjectPlan link → ObjectPlan link) : Prop where
  expected : ∀ o, (f o).expected = o.expected
  properties : ∀ o, (f o).properties = o.properties
  discriminator : ∀ o, (f o).discriminator = o.discriminator
  subtypes : ∀ o, (f o).subtypes = o.subtypes

def Core.remake (f : ObjectPlan link → ObjectPlan link) : Core link → Core link
  | .object o => .object (f o)
  | core => core

def Plan.remake (f : ObjectPlan link → ObjectPlan link) (p : Plan link) : Plan link :=
  ⟨p.onNull, p.core.remake f⟩

namespace Plan

variable {f : ObjectPlan link → ObjectPlan link} {d : Direction α β} {v : α}

theorem guard_remake (p : Plan link) (whole : Except TransformError β) :
    (p.remake f).guard d v whole = p.guard d v whole := rfl

theorem core_remake {p : Plan link} {core : Core link} (found : p.core = core) :
    (p.remake f).core = core.remake f := by
  rw [← found]
  rfl

theorem field_remake (keeps : ObjectPlan.Keeps f) (sub : link → α → Except TransformError β)
    (o : ObjectPlan link) : field d sub (f o) = field d sub o := by
  funext e
  simp only [field, keeps.properties]

theorem next?_remake (keeps : ObjectPlan.Keeps f) (p : Plan link) :
    (p.remake f).next? d v = p.next? d v := by
  obtain ⟨onNull, core⟩ := p
  cases core with
  | object o =>
    have choice : (f o).choice d = o.choice d := by
      funext es
      simp only [ObjectPlan.choice, keeps.discriminator, keeps.subtypes]
    simp only [next?, remake, Core.remake, choice]
  | _ => rfl

theorem name_remake (keeps : ObjectPlan.Keeps f) (p : Plan link) : (p.remake f).name = p.name := by
  obtain ⟨onNull, core⟩ := p
  cases core with
  | object o => exact keeps.expected o
  | _ => rfl

/-- Tags lead to the same plan, remade. -/
theorem settle_remake (keeps : ObjectPlan.Keeps f) (plans : link → Plan link) (fuel : Nat)
    (p : Plan link) :
    ((p.remake f).settle d v fuel).run (fun l => .ok ((plans l).remake f)) =
      ((p.settle d v fuel).run fun l => .ok (plans l)).map (Plan.remake f) := by
  induction fuel generalizing p with
  | zero =>
    unfold settle
    rw [next?_remake keeps]
    cases p.next? d v with
    | none => rfl
    | some l =>
      show Except.error (TransformError.endless (p.remake f).name) =
        Except.error (TransformError.endless p.name)
      rw [name_remake keeps]
  | succ fuel ih =>
    unfold settle
    rw [next?_remake keeps]
    cases p.next? d v with
    | none => rfl
    | some l => exact ih (plans l)

end Plan

namespace Spec

variable {document : Json} {options o : Options} {formats : Format.Registry} {s : Spec}

/-- The same spec under other options. -/
def under (s : Spec) (o : Options) : Spec := { s with options := o }

/-- Reading a document succeeds or fails alike under all options. -/
theorem build_under (document : Json) (options o : Options) (formats : Format.Registry) :
    build document o formats = (build document options formats).map (·.under o) := by
  simp only [build, bind, Except.bind]
  cases (definitions document).foldlM bindName [] with
  | error e => rfl
  | ok naming =>
    dsimp only
    cases numbering document with
    | error e => rfl
    | ok order =>
      dsimp only
      cases checkAliases (order.map (nodeAt document naming order)).toArray with
      | error e => rfl
      | ok _ => rfl

theorem built_under (built : build document options formats = .ok s) (o : Options) :
    build document o formats = .ok (s.under o) := by
  rw [build_under document options o formats, built]
  rfl

theorem refused_under (options o : Options) (e : SpecError) :
    build document options formats = .error e ↔ build document o formats = .error e := by
  rw [build_under document options o formats]
  cases build document options formats with
  | error other => exact Iff.rfl
  | ok s =>
    refine ⟨fun refused => ?_, fun refused => ?_⟩
    · cases refused
    · cases refused

variable {f : ObjectPlan Key → ObjectPlan Key}

/-- Where options change all object plans in one way, they change nothing else of any plan. -/
theorem plan_under (model : ∀ m, (s.under o).modelPlan m = f (s.modelPlan m))
    (free : ∀ label shape, (s.under o).freePlan label shape = f (s.freePlan label shape)) (k : Key) :
    (s.under o).plan k = (s.plan k).remake f := by
  have core : ∀ label shape, (s.under o).objectCore label shape =
      (s.objectCore label shape).remake f := by
    intro label shape
    have known : ∀ name, (s.under o).model? name = s.model? name := fun _ => rfl
    simp only [objectCore, known]
    cases shape.model with
    | none => exact congrArg Core.object (free label shape)
    | some name =>
      dsimp only
      cases s.model? name with
      | none => rfl
      | some m => exact congrArg Core.object (model m)
  have node : (s.under o).node = s.node := rfl
  have converters : (s.under o).formats = s.formats := rfl
  simp only [plan, node, converters, core]
  cases (s.node k.schema).kind with
  | primitive type format =>
    dsimp only
    cases format.bind s.formats.find? <;> rfl
  | array items => cases items <;> rfl
  | _ => rfl

/-- Where options remake all plans, a value stays at the same key under both, and the plan there is
applied under the one and remade under the other; or it goes round for ever under both. -/
theorem resultAt_under (keeps : ObjectPlan.Keeps f)
    (plans : ∀ k, (s.under o).plan k = (s.plan k).remake f) (d : Direction α β) (k : Key) (v : α) :
    (∃ n last, s.Settles d v n k last ∧
      s.resultAt d k v = (s.plan k).guard d v ((s.plan last).apply d (s.resultAt d) v) ∧
      (s.under o).resultAt d k v = (s.plan k).guard d v
        (((s.plan last).remake f).apply d ((s.under o).resultAt d) v)) ∨
    ∃ model, s.resultAt d k v = (s.plan k).guard d v (.error (.endless model)) ∧
      (s.under o).resultAt d k v = (s.plan k).guard d v (.error (.endless model)) := by
  have remade : (fun l => .ok ((s.under o).plan l)) =
      fun l => Except.ok (ε := TransformError) ((s.plan l).remake f) :=
    funext fun l => congrArg Except.ok (plans l)
  have hops : (s.under o).hops = s.hops := rfl
  have settled := Plan.settle_remake (d := d) (v := v) keeps s.plan s.hops (s.plan k)
  rcases s.settle_run d v s.hops k with ⟨n, last, _, settles, found⟩ | ⟨_, model, found⟩
  · refine .inl ⟨n, last, settles, ?_, ?_⟩
    · rw [resultAt_eq, found]
      rfl
    · rw [resultAt_eq, remade, hops, plans, settled, Plan.guard_remake, found]
      rfl
  · refine .inr ⟨model, ?_, ?_⟩
    · rw [resultAt_eq, found]
      rfl
    · rw [resultAt_eq, remade, hops, plans, settled, Plan.guard_remake, found]
      rfl

end Spec
end ApiPayload
