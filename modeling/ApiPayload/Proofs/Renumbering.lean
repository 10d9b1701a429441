import ApiPayload.Proofs.Interpreter
import ApiPayload.Proofs.Results

/-
Specs with other numbers. Where the nodes of one spec are those of another under new numbers, with the
same links under new numbers and models in any order, every plan is the same plan with new keys but for
the order of subtypes, and a value comes to the same result in both.
-/
namespace ApiPayload

open Schema

variable {α β γ δ link : Type}

theorem Except.bind_ok {ε : Type} (a : γ) (f : γ → Except ε δ) : (.ok a >>= f) = f a := rfl

theorem Except.bind_error {ε : Type} (e : ε) (f : γ → Except ε δ) : (.error e >>= f) = .error e := rfl

section Plans

/-- Subtypes are chosen by name, so they may be listed in any order. -/
inductive Core.Resorted : Core link → Core link → Prop where
  | same (core : Core link) : Resorted core core
  | subtypes (o : ObjectPlan link) {others : List (String × link)}
      (found : ∀ tag, Entries.get? tag others = Entries.get? tag o.subtypes) :
      Resorted (.object o) (.object { o with subtypes := others })

structure Plan.Resorted (p q : Plan link) : Prop where
  onNull : q.onNull = p.onNull
  core : p.core.Resorted q.core

namespace Plan

variable {d : Direction α β} {v : α}

theorem name_map (f : γ → δ) (p : Plan γ) : (p.map f).name = p.name := by
  obtain ⟨onNull, core⟩ := p
  cases core <;> rfl

theorem guard_map (f : γ → δ) (p : Plan γ) (whole : Except TransformError β) :
    (p.map f).guard d v whole = p.guard d v whole := rfl

theorem apply_map (f : γ → δ) (sub : δ → α → Except TransformError β) (p : Plan γ) :
    (p.map f).apply d sub v = p.apply d (fun l => sub (f l)) v := by
  obtain ⟨onNull, core⟩ := p
  cases core with
  | object o =>
    have each : field d sub (o.map f) = field d (fun l => sub (f l)) o := by
      funext e
      simp only [field, ObjectPlan.map, Entries.get?_mapValues]
      cases Entries.get? e.1 o.properties <;> rfl
    cases entries : d.entries? v with
    | none => simp only [apply, map, Core.map, entries, ObjectPlan.map]
    | some es =>
      rw [apply_object rfl entries, apply_object rfl entries, each]
      simp only [missing_map]
      rfl
  | _ => rfl

namespace Resorted

variable {p q : Plan link} (h : p.Resorted q)
include h

theorem next?_eq : q.next? d v = p.next? d v := by
  obtain ⟨onNull, core⟩ := p
  obtain ⟨onNull', core'⟩ := q
  obtain ⟨_, resorted⟩ := h
  cases resorted with
  | same => rfl
  | @subtypes o others found =>
    have choice : ObjectPlan.choice d { o with subtypes := others } = o.choice d := by
      funext es
      simp only [ObjectPlan.choice, found]
    simp only [next?, choice]

theorem name_eq : q.name = p.name := by
  obtain ⟨onNull, core⟩ := p
  obtain ⟨onNull', core'⟩ := q
  obtain ⟨_, resorted⟩ := h
  cases resorted <;> rfl

theorem guard_eq (whole : Except TransformError β) : q.guard d v whole = p.guard d v whole := by
  simp only [guard, h.onNull]

theorem apply_eq (sub : link → α → Except TransformError β) :
    q.apply d sub v = p.apply d sub v := by
  obtain ⟨onNull, core⟩ := p
  obtain ⟨onNull', core'⟩ := q
  obtain ⟨_, resorted⟩ := h
  cases resorted <;> rfl

end Resorted

/-- Tags lead through renamed plans as they lead through the plans themselves. -/
theorem settle_renamed {f : γ → δ} {plans : γ → Plan γ} {plans' : δ → Plan δ}
    (renamed : ∀ l, ((plans l).map f).Resorted (plans' (f l))) (fuel : Nat) {p : Plan γ} {q : Plan δ}
    (h : (p.map f).Resorted q) :
    (∃ p' q', (p.settle d v fuel).run (fun l => .ok (plans l)) = .ok p' ∧
      (q.settle d v fuel).run (fun l => .ok (plans' l)) = .ok q' ∧ (p'.map f).Resorted q') ∨
    ∃ e, (p.settle d v fuel).run (fun l => .ok (plans l)) = .error e ∧
      (q.settle d v fuel).run (fun l => .ok (plans' l)) = .error e := by
  have next : q.next? d v = (p.next? d v).map f := h.next?_eq.trans (next?_map f p)
  have name : q.name = p.name := h.name_eq.trans (name_map f p)
  induction fuel generalizing p q with
  | zero =>
    unfold settle
    rw [next]
    cases p.next? d v with
    | none => exact .inl ⟨p, q, rfl, rfl, h⟩
    | some l => exact .inr ⟨.endless p.name, rfl, by rw [← name]; rfl⟩
  | succ fuel ih =>
    unfold settle
    rw [next]
    cases p.next? d v with
    | none => exact .inl ⟨p, q, rfl, rfl, h⟩
    | some l =>
      have on := renamed l
      exact ih on (on.next?_eq.trans (next?_map f _)) (on.name_eq.trans (name_map f _))

end Plan
end Plans

section Arenas
variable {f : Id → Id} {nodes nodes' : Array Node}

/-- The same node under other numbers. What it was read from may show definitions in another order. -/
structure Schema.Node.Renumbered (f : Id → Id) (n n' : Node) : Prop where
  kind : n'.kind = n.kind.map f
  default : n'.default = n.default
  nullable : n'.nullable = n.nullable
  pointer : n'.pointer = n.pointer

theorem Schema.Node.Renumbered.label_eq {n n' : Node} (h : n.Renumbered f n') :
    n'.label = n.label := by
  rw [Node.label, Node.label, h.kind, h.pointer]
  cases n.kind with
  | object shape =>
    obtain ⟨_, _, _, model⟩ := shape
    cases model <;> rfl
  | _ => rfl

theorem Schema.Node.Renumbered.nullPolicy_eq {n n' : Node} (h : n.Renumbered f n') (required : Bool) :
    Spec.nullPolicy n' required = Spec.nullPolicy n required := by
  rw [Spec.nullPolicy, Spec.nullPolicy, h.default, h.nullable, h.label_eq]

/-- Numbers of one array stand for numbers of another; numbers of no node stand for such. -/
structure Schema.Renumbers (f : Id → Id) (nodes nodes' : Array Node) : Prop where
  size : nodes'.size = nodes.size
  node : ∀ id : Id, (nodes[id]?.getD Node.blank).Renumbered f (nodes'[f id]?.getD Node.blank)

namespace Schema.Renumbers

variable (h : Renumbers f nodes nodes')
include h

theorem concrete?_eq (fuel : Nat) (id : Id) :
    Spec.concrete? nodes' fuel (f id) = (Spec.concrete? nodes fuel id).map f := by
  induction fuel generalizing id with
  | zero => rfl
  | succ fuel ih =>
    rw [Spec.concrete?, Spec.concrete?, (h.node id).kind]
    cases (nodes[id]?.getD Node.blank).kind with
    | ref target => exact ih target
    | _ => rfl

theorem aliasEnd?_eq (id : Id) :
    Spec.aliasEnd? nodes' (f id) = (Spec.aliasEnd? nodes id).map f := by
  rw [Spec.aliasEnd?, Spec.aliasEnd?, h.size, h.concrete?_eq]

theorem concrete_eq (id : Id) : (Spec.aliasEnd? nodes' (f id)).getD (f id) =
    f ((Spec.aliasEnd? nodes id).getD id) := by
  rw [h.aliasEnd?_eq]
  cases Spec.aliasEnd? nodes id <;> rfl

theorem defaultsOf_eq (properties : List (String × Id)) :
    Spec.defaultsOf nodes' (Entries.mapValues f properties) = Spec.defaultsOf nodes properties := by
  simp only [Spec.defaultsOf, Entries.mapValues, List.filterMap_map]
  refine List.filterMap_congr fun e _ => ?_
  simp only [Function.comp, h.concrete_eq, (h.node _).default]

end Schema.Renumbers
end Arenas

def Key.renumber (f : Id → Id) (k : Key) : Key := ⟨f k.schema, k.required⟩

def Model.renumber (f : Id → Id) (m : Model) : Model :=
  { m with schema := f m.schema, shape := m.shape.map f }

theorem find?_perm {xs ys : List γ} (moved : xs.Perm ys) {P : γ → Bool}
    (one : ∀ a ∈ xs, ∀ b ∈ xs, P a = true → P b = true → a = b) : ys.find? P = xs.find? P := by
  cases found : xs.find? P with
  | none =>
    rw [List.find?_eq_none] at found ⊢
    exact fun a member => found a (moved.mem_iff.mpr member)
  | some a =>
    have member := List.mem_of_find?_eq_some found
    have chosen := List.find?_some found
    have some : (ys.find? P).isSome = true :=
      List.find?_isSome.mpr ⟨a, moved.mem_iff.mp member, chosen⟩
    obtain ⟨b, found'⟩ := Option.isSome_iff_exists.mp some
    have member' := moved.mem_iff.mpr (List.mem_of_find?_eq_some found')
    rw [found', one a member b member' chosen (List.find?_some found')]

namespace Spec

variable {f : Id → Id} {s s' : Spec}

/-- One spec is another under new numbers, its models in any order. -/
structure Renumbered (f : Id → Id) (s s' : Spec) : Prop where
  arena : Renumbers f s.nodes s'.nodes
  places : ∀ p, s'.nodeOf? p = (s.nodeOf? p).map f
  models : (s.models.map (Model.renumber f)).Perm s'.models
  names : ∀ m ∈ s.models, ∀ other ∈ s.models, m.name = other.name → m = other
  options : s'.options = s.options
  formats : s'.formats = s.formats

namespace Renumbered

variable (h : s.Renumbered f s')
include h

theorem node (id : Id) : (s.node id).Renumbered f (s'.node (f id)) := h.arena.node id

theorem hops_eq : s'.hops = s.hops := by
  rw [hops, hops, ← h.models.length_eq, List.length_map]

theorem key_eq (id : Id) (required : Bool) :
    s'.key (f id) required = (s.key id required).renumber f := by
  rw [key, key, concrete, concrete, h.arena.concrete_eq]
  rfl

theorem propertyKeys_eq (shape : Shape Id) : s'.propertyKeys (shape.map f) =
    Entries.mapValues (Key.renumber f) (s.propertyKeys shape) := by
  simp only [propertyKeys, Shape.map, Entries.mapValues, List.map_map]
  exact List.map_congr_left fun e _ => congrArg (Prod.mk e.1) (h.key_eq e.2 _)

/-- What singles out models by name finds the same model. -/
theorem find?_eq {P : Model → Bool} (kept : ∀ m, P (m.renumber f) = P m)
    (single : ∀ m other, P m = true → P other = true → m.name = other.name) :
    s'.models.find? P = (s.models.find? P).map (Model.renumber f) := by
  have one : ∀ a ∈ s.models.map (Model.renumber f), ∀ b ∈ s.models.map (Model.renumber f),
      P a = true → P b = true → a = b := by
    intro a member b member' chosen chosen'
    obtain ⟨m, listed, rfl⟩ := List.mem_map.mp member
    obtain ⟨other, listed', rfl⟩ := List.mem_map.mp member'
    rw [kept] at chosen chosen'
    rw [h.names m listed other listed' (single m other chosen chosen')]
  rw [find?_perm h.models one, List.find?_map]
  exact congrArg (Option.map _) (congrArg (List.find? · s.models) (funext kept))

theorem model?_eq (name : String) : s'.model? name = (s.model? name).map (Model.renumber f) := by
  refine h.find?_eq (fun m => rfl) fun m other named named' => ?_
  rw [of_decide_eq_true named, of_decide_eq_true named']

theorem get?_subtypeKeys_eq (base tag : String) : Entries.get? tag (s'.subtypeKeys base) =
    (Entries.get? tag (s.subtypeKeys base)).map (Key.renumber f) := by
  have found := h.find?_eq (P := fun m => m.name = tag ∧ base ∈ m.ancestors) (fun m => rfl)
    fun m other named named' => by
      rw [(of_decide_eq_true named).1, (of_decide_eq_true named').1]
  rw [get?_subtypeKeys, get?_subtypeKeys, found, Option.map_map, Option.map_map]
  refine congrArg (Option.map · _) (funext fun m => ?_)
  exact h.key_eq m.schema true

theorem modelPlan_resorted (m : Model) : (Core.object ((s.modelPlan m).map (Key.renumber f))).Resorted
    (.object (s'.modelPlan (m.renumber f))) := by
  have found : ∀ tag, Entries.get? tag (s'.modelPlan (m.renumber f)).subtypes =
      Entries.get? tag ((s.modelPlan m).map (Key.renumber f)).subtypes := by
    intro tag
    obtain ⟨name, schema, ⟨properties, required, discriminator, model⟩, ancestors, defaults⟩ := m
    rw [ObjectPlan.map, Entries.get?_mapValues]
    cases discriminator with
    | none => rfl
    | some _ => exact h.get?_subtypeKeys_eq name tag
  have rest : s'.modelPlan (m.renumber f) = { (s.modelPlan m).map (Key.renumber f) with
      subtypes := (s'.modelPlan (m.renumber f)).subtypes } := by
    simp only [modelPlan, ObjectPlan.map, Model.renumber, h.propertyKeys_eq, h.options]
    rfl
  rw [rest]
  exact .subtypes _ found

theorem freePlan_eq (label : String) (shape : Shape Id) :
    s'.freePlan label (shape.map f) = (s.freePlan label shape).map (Key.renumber f) := by
  have defaults : s'.defaults (shape.map f).properties = s.defaults shape.properties :=
    h.arena.defaultsOf_eq shape.properties
  simp only [freePlan, ObjectPlan.map, h.propertyKeys_eq, defaults, h.options]
  rfl

theorem objectCore_resorted (label : String) (shape : Shape Id) :
    ((s.objectCore label shape).map (Key.renumber f)).Resorted
      (s'.objectCore label (shape.map f)) := by
  have model : (shape.map f).model = shape.model := rfl
  rw [objectCore, objectCore, model]
  cases shape.model with
  | none =>
    dsimp only
    rw [h.freePlan_eq]
    exact .same _
  | some name =>
    dsimp only
    rw [h.model?_eq]
    cases s.model? name with
    | none => exact .same _
    | some m => exact h.modelPlan_resorted m

theorem plan_resorted (k : Key) :
    ((s.plan k).map (Key.renumber f)).Resorted (s'.plan (k.renumber f)) := by
  have node := h.node k.schema
  have kind' := node.kind
  have ruled : ∀ core core' : Core Key, (core.map (Key.renumber f)).Resorted core' →
      (Plan.map (Key.renumber f) ⟨some (nullPolicy (s.node k.schema) k.required), core⟩).Resorted
        ⟨some (nullPolicy (s'.node (f k.schema)) k.required), core'⟩ :=
    fun core core' resorted => ⟨congrArg some (node.nullPolicy_eq k.required), resorted⟩
  unfold plan
  cases kind : (s.node k.schema).kind with
  | primitive type format =>
    rw [kind] at kind'
    simp only [Key.renumber, kind, kind', Kind.map, h.formats]
    cases format.bind fun name => s.formats.find? name with
    | none => exact ruled _ _ (.same _)
    | some c => exact ruled _ _ (.same _)
  | array items =>
    rw [kind] at kind'
    cases items with
    | none =>
      simp only [Key.renumber, kind, kind', Kind.map, Option.map_none]
      exact ruled _ _ (.same _)
    | some items =>
      simp only [Key.renumber, kind, kind', Kind.map, Option.map_some, h.key_eq, node.label_eq]
      exact ruled _ _ (.same _)
  | object shape =>
    rw [kind] at kind'
    simp only [Key.renumber, kind, kind', Kind.map, node.label_eq]
    exact ruled _ _ (h.objectCore_resorted _ shape)
  | file =>
    rw [kind] at kind'
    simp only [Key.renumber, kind, kind', Kind.map]
    exact ruled _ _ (.same _)
  | _ =>
    rw [kind] at kind'
    simp only [Key.renumber, kind, kind', Kind.map]
    exact ⟨rfl, .same _⟩

/-- A value comes to the same under both numbers. -/
theorem resultAt_eq (d : Direction α β) (k : Key) (v : α) :
    s'.resultAt d (k.renumber f) v = s.resultAt d k v := by
  induction size : d.size v using Nat.strongRecOn generalizing k v with
  | ind bound ih =>
    subst size
    have here := h.plan_resorted k
    rw [Spec.resultAt_eq, Spec.resultAt_eq, here.guard_eq, Plan.guard_map, h.hops_eq]
    refine congrArg ((s.plan k).guard d v) ?_
    rcases Plan.settle_renamed h.plan_resorted s.hops here with
      ⟨p, q, settled, settled', there⟩ | ⟨e, failed, failed'⟩
    · rw [settled, settled', Except.bind_ok, Except.bind_ok, there.apply_eq, Plan.apply_map]
      exact p.apply_congr fun l _ x smaller => ih _ smaller l x rfl
    · rw [failed, failed', Except.bind_error, Except.bind_error]

theorem definition?_eq (name : String) : s'.definition? name = (s.definition? name).map f := by
  simp only [definition?, containers, List.findSome?_cons, List.findSome?_nil, h.places, h.model?_eq]
  cases s.nodeOf? (Pointer.child ⟨["definitions"]⟩ name) with
  | some id => rfl
  | none =>
    cases s.nodeOf? (Pointer.child ⟨["components", "schemas"]⟩ name) with
    | some id => rfl
    | none => cases s.model? name <;> rfl

theorem schemaAt?_eq (text : String) : s'.schemaAt? text = (s.schemaAt? text).map f := by
  rw [schemaAt?, schemaAt?]
  cases Pointer.ofChars? (Pointer.hashless text) with
  | none => rfl
  | some p => exact h.places p

omit h in
theorem known_eq (reference : String) {o o' : Option Id} (same : o' = o.map f) : (match o' with
      | some id => (.ok id : Except SpecError Id)
      | none => .error (.unknownSchema reference)) =
    Except.map f (match o with
      | some id => .ok id
      | none => .error (.unknownSchema reference)) := by
  subst same
  cases o <;> rfl

theorem resolve_eq (reference : String) : s'.resolve reference = (s.resolve reference).map f := by
  refine known_eq reference ?_
  split
  · exact h.schemaAt?_eq reference
  · exact h.schemaAt?_eq reference
  · exact h.definition?_eq reference

end Renumbered
end Spec

/-- The same but for the numbers of schemas. -/
structure Model.Alike (m m' : Model) : Prop where
  name : m'.name = m.name
  properties : Entries.keys m'.shape.properties = Entries.keys m.shape.properties
  required : m'.shape.required = m.shape.required
  discriminator : m'.shape.discriminator = m.shape.discriminator
  ancestors : m'.ancestors = m.ancestors
  defaults : m'.defaults = m.defaults

theorem Model.alike_renumber (f : Id → Id) (m : Model) : m.Alike (m.renumber f) :=
  ⟨rfl, Entries.keys_mapValues f _, rfl, rfl, rfl, rfl⟩

namespace Spec

variable {f : Id → Id} {s s' : Spec}

/-- Values come to the same under both numbers, whatever was asked of either spec before. -/
def SameResults (s s' : Spec) (id id' : Id) : Prop :=
  ∀ uses uses' : List Use,
    (∀ v, (s'.unmarshal (s'.after uses').unmarshal id' v).2 =
      (s.unmarshal (s.after uses).unmarshal id v).2) ∧
    ∀ v, (s'.marshal (s'.after uses').marshal id' v).2 = (s.marshal (s.after uses).marshal id v).2

/-- Specs that give the same results for the same names and have the same models. -/
structure Interchangeable (s s' : Spec) : Prop where
  defined : ∀ d ∈ definitions s.document, ∃ id id', s.definition? d.2.1 = some id ∧
    s'.definition? d.2.1 = some id' ∧ SameResults s s' id id'
  resolved : ∀ reference, (∃ e, s.resolve reference = .error e ∧ s'.resolve reference = .error e) ∨
    ∃ id id', s.resolve reference = .ok id ∧ s'.resolve reference = .ok id' ∧ SameResults s s' id id'
  models : ∀ m ∈ s.models, ∃ m' ∈ s'.models, m.Alike m'
  models' : ∀ m' ∈ s'.models, ∃ m ∈ s.models, m.Alike m'

theorem Renumbered.sameResults (h : s.Renumbered f s') (id : Id) : SameResults s s' id (f id) := by
  intro uses uses'
  refine ⟨fun v => ?_, fun v => ?_⟩
  · rw [unmarshal_after, unmarshal_after, h.key_eq, h.resultAt_eq]
  · rw [marshal_after, marshal_after, h.key_eq, h.resultAt_eq]

theorem Renumbered.interchangeable (h : s.Renumbered f s')
    (defined : ∀ d ∈ definitions s.document, ∃ id, s.definition? d.2.1 = some id) :
    s.Interchangeable s' := by
  refine ⟨fun d listed => ?_, fun reference => ?_, fun m member => ?_, fun m' member => ?_⟩
  · obtain ⟨id, found⟩ := defined d listed
    exact ⟨id, f id, found, by rw [h.definition?_eq, found]; rfl, h.sameResults id⟩
  · rw [h.resolve_eq]
    cases s.resolve reference with
    | error e => exact .inl ⟨e, rfl, rfl⟩
    | ok id => exact .inr ⟨id, f id, rfl, rfl, h.sameResults id⟩
  · exact ⟨_, h.models.mem_iff.mp (List.mem_map_of_mem member), m.alike_renumber f⟩
  · obtain ⟨m, listed, rfl⟩ := List.mem_map.mp (h.models.mem_iff.mpr member)
    exact ⟨m, listed, m.alike_renumber f⟩

end Spec
end ApiPayload
