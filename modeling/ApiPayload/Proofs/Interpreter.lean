import Mathlib.Data.List.Basic
import ApiPayload.Proofs.Built
import ApiPayload.Proofs.Runs

/-
Schemas read directly: a recursion over nodes and values that prepares nothing and remembers
nothing. Where tags lead round in a circle it has no result, however much fuel there is.
-/
namespace ApiPayload

open Schema

variable {α β : Type}

def nullResult (d : Direction α β) (n : Node) (required : Bool) : Except TransformError β :=
  match n.default with
  | some j => .ok (d.ofDefault j)
  | none => if required && !n.nullable then .error (.nullNotAllowed n.label) else .ok d.null

/-- An object schema by itself or in the name of its model. -/
structure ObjectView where
  expected : String
  shape : Shape Id
  model : Option Model

namespace Spec

/-- The model of a bound object decides; it has to be known. -/
def view (s : Spec) (n : Node) (shape : Shape Id) : Except String ObjectView :=
  match shape.model with
  | none => .ok ⟨n.label, shape, none⟩
  | some name =>
    match s.model? name with
    | some m => .ok ⟨m.name, m.shape, some m⟩
    | none => .error name

/-- The model below a model that the tag among some entries names. -/
def subtype? (s : Spec) (d : Direction α β) (m : Model) (es : List (String × α)) : Option Model := do
  let mark ← m.shape.discriminator
  let tag ← d.string? (← Entries.get? mark es)
  s.models.find? fun below => below.name = tag ∧ m.name ∈ below.ancestors

/-- A property that is not there becomes its default or null. -/
def filler (s : Spec) (d : Direction α β) (id : Id) : β :=
  match (s.node (s.concrete id)).default with
  | some j => d.ofDefault j
  | none => d.null

def fillers (s : Spec) (d : Direction α β) (shape : Shape Id) (fields : List (String × β)) :
    List (String × β) :=
  if s.options.includeMissing then
    shape.properties.filterMap fun e =>
      if Entries.contains e.1 fields then none else some (e.1, s.filler d e.2)
  else []

def resultName (s : Spec) (r : ObjectView) : Option String :=
  if s.options.useModels then r.model.map (·.name) else none

/-- A value under a schema, with no plan and no cache. `fuel` bounds the depth of the recursion. -/
def interpret (s : Spec) (d : Direction α β) : Nat → Id → Bool → α →
    Option (Except TransformError β)
  | 0, _, _, _ => none
  | fuel + 1, id, required, v =>
    let n := s.node (s.concrete id)
    let result : ExceptT TransformError Option β :=
      match n.kind with
      | .untyped | .ref _ => pure (d.pass v)
      | .unknown type => throw (.unknownType type (d.describe v))
      | kind =>
        if d.isNull v then some (nullResult d n required)
        else
          match kind with
          | .primitive _ format =>
            match format.bind s.formats.find? with
            | none => pure (d.pass v)
            | some c =>
              match d.convert c v with
              | .ok w => pure w
              | .error fault => throw (.format c.name (d.describe v) fault)
          | .array (some items) =>
            match d.list? v with
            | none => throw (.notList n.label (d.typeName v) (d.describe v))
            | some xs => do return d.list (← xs.mapM fun x => s.interpret d fuel items true x)
          | .object shape =>
            match s.view n shape with
            | .error model => throw (.unknownModel model (d.describe v))
            | .ok o =>
              match d.entries? v with
              | none => throw (.notObject o.expected (d.typeName v) (d.describe v))
              | some es =>
                match o.model.bind fun m => s.subtype? d m es with
                | some below => s.interpret d fuel below.schema true v
                | none => do
                  let fields ← es.mapM fun e =>
                    match Entries.get? e.1 o.shape.properties with
                    | some property => do
                      let required := decide (e.1 ∈ o.shape.required)
                      return (e.1, ← s.interpret d fuel property required e.2)
                    | none => pure (e.1, d.pass e.2)
                  return d.object (s.resultName o) (fields ++ s.fillers d o.shape fields)
          | _ => pure (d.pass v)
    result

theorem guard_ruled (d : Direction α β) (n : Node) (required : Bool) (core : Core Key) (v : α)
    (whole : ExceptT TransformError Option β) :
    Plan.guard d ⟨some (nullPolicy n required), core⟩ v whole =
      if d.isNull v then some (nullResult d n required) else whole := by
  simp only [Plan.guard, nullPolicy, nullResult]
  split
  · cases n.default with
    | some j => rfl
    | none => by_cases refused : (required && !n.nullable) = true <;> simp only [refused] <;> rfl
  · rfl

theorem get?_propertyKeys (s : Spec) (shape : Shape Id) (name : String) :
    Entries.get? name (s.propertyKeys shape) = (Entries.get? name shape.properties).map fun id =>
      s.key id (decide (name ∈ shape.required)) := by
  unfold propertyKeys
  induction shape.properties with
  | nil => rfl
  | cons e rest ih =>
    obtain ⟨other, id⟩ := e
    by_cases same : other = name
    · simp [Entries.get?, same]
    · simpa [Entries.get?, same] using ih

theorem keys_propertyKeys (s : Spec) (shape : Shape Id) :
    Entries.keys (s.propertyKeys shape) = Entries.keys shape.properties := by
  simp only [propertyKeys, Entries.keys, List.map_map]
  rfl

theorem get?_subtypeKeys (s : Spec) (base tag : String) :
    Entries.get? tag (s.subtypeKeys base) =
      (s.models.find? fun m => m.name = tag ∧ base ∈ m.ancestors).map fun m =>
        s.key m.schema true := by
  unfold subtypeKeys
  induction s.models with
  | nil => rfl
  | cons m rest ih =>
    by_cases heir : base ∈ m.ancestors
    · by_cases same : m.name = tag
      · simp [Entries.get?, heir, same]
      · simpa [Entries.get?, heir, same] using ih
    · simpa [heir] using ih

theorem get?_defaults {s : Spec} {properties : List (String × Id)}
    (distinct : (Entries.keys properties).Nodup) {name : String} {id : Id}
    (declared : (name, id) ∈ properties) :
    Entries.get? name (s.defaults properties) = (s.node (s.concrete id)).default := by
  simp only [defaults, defaultsOf]
  induction properties with
  | nil => simp at declared
  | cons e rest ih =>
    obtain ⟨other, other_id⟩ := e
    obtain ⟨fresh, later⟩ := List.nodup_cons.mp distinct
    have elsewhere : other ∉ Entries.keys (defaultsOf s.nodes rest) := by
      intro member
      obtain ⟨⟨_, j⟩, found, rfl⟩ := List.mem_map.mp member
      simp only [defaultsOf, List.mem_filterMap, Option.map_eq_some_iff] at found
      obtain ⟨e, source, _, _, same⟩ := found
      cases same
      exact fresh (List.mem_map.mpr ⟨e, source, rfl⟩)
    rcases List.mem_cons.mp declared with same | declared
    · obtain ⟨rfl, rfl⟩ := Prod.mk.inj same
      rw [List.filterMap_cons]
      cases default : (s.nodes[(aliasEnd? s.nodes id).getD id]?.getD .blank).default with
      | none =>
        rw [node, concrete, default]
        exact (Entries.get?_eq_none_iff _ _).mpr elsewhere
      | some j => simp [Entries.get?, node, concrete, default]
    · have other_name : other ≠ name := by
        rintro rfl
        exact fresh (List.mem_map.mpr ⟨_, declared, rfl⟩)
      rw [List.filterMap_cons, ← ih later declared]
      split
      · rfl
      · rename_i found
        obtain ⟨j, _, rfl⟩ := Option.map_eq_some_iff.mp found
        simp [Entries.get?, other_name]

def readPlan (s : Spec) (r : ObjectView) : ObjectPlan Key where
  expected := r.expected
  properties := s.propertyKeys r.shape
  defaults := s.defaults r.shape.properties
  discriminator := r.model.bind (·.shape.discriminator)
  subtypes := match r.model with
    | none => []
    | some m => if m.shape.discriminator.isSome then s.subtypeKeys m.name else []
  typed := s.resultName r
  includeMissing := s.options.includeMissing

theorem WellFormed.view_distinct {s : Spec} (h : s.WellFormed) {id : Id} {shape : Shape Id}
    (object : (s.node id).kind = .object shape) {r : ObjectView}
    (read : s.view (s.node id) shape = .ok r) : r.shape.Distinct := by
  unfold view at read
  split at read
  · cases read
    exact h.distinct id shape object
  · split at read
    · rename_i m found
      cases read
      exact h.modelDistinct m (List.mem_of_find?_eq_some found)
    · cases read

theorem WellFormed.objectCore_eq {s : Spec} (h : s.WellFormed) (n : Node) (shape : Shape Id) :
    s.objectCore n.label shape = match s.view n shape with
      | .error model => .unknownModel model
      | .ok r => .object (s.readPlan r) := by
  unfold objectCore view
  cases shape.model with
  | none => simp [freePlan, readPlan, resultName]
  | some name =>
    cases found : s.model? name with
    | none => simp [found]
    | some m =>
      have defaults := h.defaults m (List.mem_of_find?_eq_some found)
      simp [found, modelPlan, readPlan, resultName, defaults]

theorem choice_readPlan (s : Spec) (d : Direction α β) (r : ObjectView) (es : List (String × α)) :
    (s.readPlan r).choice d es =
      (r.model.bind fun m => s.subtype? d m es).map fun m => s.key m.schema true := by
  obtain ⟨expected, shape, model⟩ := r
  cases model with
  | none => rfl
  | some m =>
    simp only [ObjectPlan.choice, readPlan, subtype?, Option.bind_some]
    cases m.shape.discriminator with
    | none => rfl
    | some mark =>
      cases found : Entries.get? mark es with
      | none => simp [found]
      | some x =>
        cases text : d.string? x with
        | none => simp [found, text]
        | some tag => simp [found, text, get?_subtypeKeys]

theorem missing_readPlan {s : Spec} {r : ObjectView} (distinct : r.shape.Distinct)
    (d : Direction α β) (fields : List (String × β)) :
    Plan.missing d (s.readPlan r) fields = s.fillers d r.shape fields := by
  simp only [Plan.missing, readPlan, fillers, propertyKeys, List.filterMap_map]
  split
  · refine List.filterMap_congr fun e member => ?_
    simp only [Function.comp, filler, get?_defaults distinct member]
    cases (s.node (s.concrete e.2)).default <;> rfl
  · rfl

/-- Where a plan hands a value down, the tag of the value names a model below the one that the
schema is bound to. -/
theorem WellFormed.next?_plan {s : Spec} (h : s.WellFormed) {d : Direction α β} {k next : Key}
    {v : α} (chosen : (s.plan k).next? d v = some next) :
    ∃ shape r es below, (s.node k.schema).kind = .object shape ∧
      s.view (s.node k.schema) shape = .ok r ∧ d.entries? v = some es ∧
      (r.model.bind fun m => s.subtype? d m es) = some below ∧ next = s.key below.schema true := by
  unfold plan at chosen
  cases kind : (s.node k.schema).kind with
  | object shape =>
    simp only [kind, h.objectCore_eq] at chosen
    cases read : s.view (s.node k.schema) shape with
    | error model => simp [read, Plan.next?] at chosen
    | ok r =>
      simp only [read, Plan.next?, Option.bind_eq_some_iff, choice_readPlan,
        Option.map_eq_some_iff] at chosen
      obtain ⟨es, entries, below, named, rfl⟩ := chosen
      exact ⟨shape, r, es, below, rfl, read, entries, Option.bind_eq_some_iff.mpr named, rfl⟩
  | primitive type format =>
    simp only [kind] at chosen
    split at chosen <;> simp [Plan.next?] at chosen
  | array items => cases items <;> simp [kind, Plan.next?] at chosen
  | _ => simp [kind, Plan.next?] at chosen

def read (s : Spec) (d : Direction α β) (fuel : Nat) (k : Key) (v : α) :
    ExceptT TransformError Option β :=
  s.interpret d fuel k.schema k.required v

theorem WellFormed.read_key {s : Spec} (h : s.WellFormed) (d : Direction α β) (fuel : Nat) (id : Id)
    (required : Bool) (v : α) :
    s.read d fuel (s.key id required) v = s.interpret d fuel id required v := by
  cases fuel with
  | zero => rfl
  | succ fuel =>
    rw [read, key, interpret, interpret]
    simp only [h.concrete_concrete id]

theorem WellFormed.read_next {s : Spec} (h : s.WellFormed) {d : Direction α β} {k next : Key} {v : α}
    (concrete : s.concrete k.schema = k.schema) (chosen : (s.plan k).next? d v = some next)
    (fuel : Nat) : s.read d (fuel + 1) k v = s.read d fuel next v := by
  obtain ⟨shape, o, es, below, kind, view, entries, named, rfl⟩ := h.next?_plan chosen
  rw [h.read_key, read, interpret, concrete]
  simp only [kind, Plan.not_null_of_next? chosen, Bool.false_eq_true, if_false, view, entries, named]

theorem WellFormed.read_items {s : Spec} (h : s.WellFormed) {d : Direction α β} {k : Key} {v : α}
    {items : Id} (concrete : s.concrete k.schema = k.schema)
    (kind : (s.node k.schema).kind = .array (some items)) (fuel : Nat) :
    s.read d (fuel + 1) k v =
      (s.plan k).guard d v ((s.plan k).apply d (s.read d fuel) v) := by
  have planned : s.plan k = ⟨some (nullPolicy (s.node k.schema) k.required),
      .list (s.node k.schema).label (s.key items true)⟩ := by
    simp only [plan, kind]
  rw [read, interpret, concrete, planned, guard_ruled]
  simp only [kind, Plan.apply]
  refine if_congr Iff.rfl rfl ?_
  cases d.list? v with
  | none => rfl
  | some xs =>
    refine congrArg (· >>= _) (congrArg (List.mapM · xs) (funext fun x => ?_))
    exact (h.read_key d fuel items true x).symm

theorem WellFormed.read_object {s : Spec} (h : s.WellFormed) {d : Direction α β} {k : Key} {v : α}
    {shape : Shape Id} (concrete : s.concrete k.schema = k.schema)
    (kind : (s.node k.schema).kind = .object shape) (stays : (s.plan k).next? d v = none)
    (fuel : Nat) :
    s.read d (fuel + 1) k v =
      (s.plan k).guard d v ((s.plan k).apply d (s.read d fuel) v) := by
  have core := h.objectCore_eq (s.node k.schema) shape
  rw [read, interpret, concrete]
  cases view : s.view (s.node k.schema) shape with
  | error model =>
    have planned : s.plan k =
        ⟨some (nullPolicy (s.node k.schema) k.required), .unknownModel model⟩ := by
      simp only [plan, kind, core, view]
    rw [planned, guard_ruled]
    simp only [kind, view]
    rfl
  | ok o =>
    have distinct := h.view_distinct kind view
    have planned : s.plan k =
        ⟨some (nullPolicy (s.node k.schema) k.required), .object (s.readPlan o)⟩ := by
      simp only [plan, kind, core, view]
    rw [planned, guard_ruled]
    simp only [kind, view, Plan.apply]
    cases entries : d.entries? v with
    | none => rfl
    | some es =>
      simp only [planned, Plan.next?, entries, Option.bind_some, choice_readPlan,
        Option.map_eq_none_iff] at stays
      simp only [stays, missing_readPlan distinct]
      refine if_congr Iff.rfl rfl ?_
      refine congrArg (· >>= _) (congrArg (List.mapM · es) (funext fun e => ?_))
      rw [readPlan, get?_propertyKeys]
      cases Entries.get? e.1 o.shape.properties with
      | none => rfl
      | some id => simp only [Option.map_some, h.read_key]

/-- Where no tag leads on, the schema itself decides. -/
theorem WellFormed.read_apply {s : Spec} (h : s.WellFormed) {d : Direction α β} {k : Key} {v : α}
    (concrete : s.concrete k.schema = k.schema) (stays : (s.plan k).next? d v = none) (fuel : Nat) :
    s.read d (fuel + 1) k v =
      (s.plan k).guard d v ((s.plan k).apply d (s.read d fuel) v) := by
  have unruled : ∀ (core : Core Key) (whole : ExceptT TransformError Option β),
      Plan.guard d ⟨none, core⟩ v whole = whole := by
    intro core whole
    simp only [Plan.guard, ite_self]
  cases kind : (s.node k.schema).kind with
  | ref target =>
    have planned : s.plan k = ⟨none, .pass⟩ := by simp only [plan, kind]
    rw [read, interpret, concrete, planned, unruled, kind]
    rfl
  | untyped =>
    have planned : s.plan k = ⟨none, .pass⟩ := by simp only [plan, kind]
    rw [read, interpret, concrete, planned, unruled, kind]
    rfl
  | unknown type =>
    have planned : s.plan k = ⟨none, .unknownType type⟩ := by simp only [plan, kind]
    rw [read, interpret, concrete, planned, unruled, kind]
    rfl
  | file =>
    have planned : s.plan k = ⟨some (nullPolicy (s.node k.schema) k.required), .pass⟩ := by
      simp only [plan, kind]
    rw [read, interpret, concrete, planned, guard_ruled, kind]
    rfl
  | primitive type format =>
    rw [read, interpret, concrete]
    cases found : format.bind s.formats.find? with
    | none =>
      have planned : s.plan k = ⟨some (nullPolicy (s.node k.schema) k.required), .pass⟩ := by
        simp only [plan, kind, found]
      rw [planned, guard_ruled]
      simp only [kind, found]
      rfl
    | some c =>
      have planned : s.plan k = ⟨some (nullPolicy (s.node k.schema) k.required), .convert c⟩ := by
        simp only [plan, kind, found]
      rw [planned, guard_ruled]
      simp only [kind, found]
      rfl
  | array items =>
    cases items with
    | none =>
      have planned : s.plan k = ⟨some (nullPolicy (s.node k.schema) k.required), .pass⟩ := by
        simp only [plan, kind]
      rw [read, interpret, concrete, planned, guard_ruled, kind]
      rfl
    | some items => exact h.read_items concrete kind fuel
  | object shape => exact h.read_object concrete kind stays fuel

end Spec
end ApiPayload
