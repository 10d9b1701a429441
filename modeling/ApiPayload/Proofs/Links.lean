import Mathlib.Logic.Relation
import ApiPayload.Transform.Cache

/-
Which schemas the plan of a schema leads to, and what becomes of a plan when its keys are replaced
by links to the same places.
-/
namespace ApiPayload

variable {α β : Type}

def ObjectPlan.map (f : α → β) (o : ObjectPlan α) : ObjectPlan β :=
  ⟨o.expected, Entries.mapValues f o.properties, o.defaults, o.discriminator,
    Entries.mapValues f o.subtypes, o.typed, o.includeMissing⟩

def Core.map (f : α → β) : Core α → Core β
  | .pass => .pass
  | .unknownType type => .unknownType type
  | .unknownModel model => .unknownModel model
  | .convert c => .convert c
  | .list schema item => .list schema (f item)
  | .object o => .object (o.map f)

def Plan.map (f : α → β) (p : Plan α) : Plan β := ⟨p.onNull, p.core.map f⟩

theorem map_snd_mapValues (f : α → β) (es : List (String × α)) :
    (Entries.mapValues f es).map (·.2) = (es.map (·.2)).map f := by
  simp [Entries.mapValues]

theorem links_map (f : α → β) (p : Plan α) : (p.map f).links = p.links.map f := by
  obtain ⟨onNull, core⟩ := p
  cases core with
  | object o => simp only [Plan.links, Plan.map, Core.map, Core.links, ObjectPlan.map,
      map_snd_mapValues, List.map_append]
  | _ => rfl

theorem relinkEntries_spec {f : β → α} {es : List (String × α)} {ls : List β}
    (h : es.map (·.2) = ls.map f) :
    Entries.mapValues f (relinkEntries es ls) = es ∧ (relinkEntries es ls).map (·.2) = ls := by
  induction es generalizing ls with
  | nil =>
    have empty : ls = [] := by simpa using h.symm
    subst ls
    exact ⟨rfl, rfl⟩
  | cons e rest ih =>
    cases ls with
    | nil => simp at h
    | cons l ls =>
      obtain ⟨name, a⟩ := e
      simp only [List.map_cons, List.cons.injEq] at h
      obtain ⟨here, rest⟩ := ih h.2
      exact ⟨by simpa [relinkEntries, Entries.mapValues, h.1] using here,
        by simpa [relinkEntries] using rest⟩

/-- Links that lead where the keys say make a plan that differs from the keyed one in nothing else. -/
theorem relink_exact {f : β → α} {p : Plan α} {ls : List β} (h : p.links = ls.map f) :
    ∃ q, p.relink ls = some q ∧ q.map f = p ∧ q.links = ls := by
  obtain ⟨onNull, core⟩ := p
  cases core with
  | list schema item =>
    have one : ∃ l, ls = [l] ∧ f l = item := by
      simpa [Plan.links, Core.links, eq_comm, List.map_eq_singleton_iff] using h
    obtain ⟨l, rfl, rfl⟩ := one
    exact ⟨⟨onNull, .list schema l⟩, rfl, rfl, rfl⟩
  | object o =>
    simp only [Plan.links, Core.links] at h
    have own : o.properties.map (·.2) = (ls.take o.properties.length).map f := by
      rw [List.map_take, ← h, List.take_left' (by simp)]
    have rest : o.subtypes.map (·.2) = (ls.drop o.properties.length).map f := by
      rw [List.map_drop, ← h, List.drop_left' (by simp)]
    obtain ⟨same, kept⟩ := relinkEntries_spec own
    obtain ⟨sameRest, keptRest⟩ := relinkEntries_spec rest
    simp only [Plan.relink, Core.relink, List.splitAt_eq, Option.map_some]
    refine ⟨_, rfl, ?_, ?_⟩
    · simp only [Plan.map, Core.map, ObjectPlan.map, same, sameRest]
    · simp only [Plan.links, Core.links, kept, keptRest, List.take_append_drop]
  | _ =>
    have empty : ls = [] := by simpa [Plan.links, Core.links] using h.symm
    subst ls
    exact ⟨_, rfl, rfl, rfl⟩

namespace Spec

open Schema

/-- One schema needs another: items of a list, properties of an object or of its model, and the
models below a model that tells subtypes apart. A model that is not known needs nothing. -/
inductive Edge (s : Spec) (k : Key) : Key → Prop where
  | item {items : Id} (list : (s.node k.schema).kind = .array (some items)) :
      Edge s k (s.key items true)
  | property {shape : Shape Id} {name : String} {id : Id}
      (object : (s.node k.schema).kind = .object shape) (free : shape.model = none)
      (declared : (name, id) ∈ shape.properties) :
      Edge s k (s.key id (decide (name ∈ shape.required)))
  | modelProperty {shape : Shape Id} {model name : String} {m : Model} {id : Id}
      (object : (s.node k.schema).kind = .object shape) (bound : shape.model = some model)
      (known : s.model? model = some m) (declared : (name, id) ∈ m.shape.properties) :
      Edge s k (s.key id (decide (name ∈ m.shape.required)))
  | subtype {shape : Shape Id} {model : String} {m below : Model}
      (object : (s.node k.schema).kind = .object shape) (bound : shape.model = some model)
      (known : s.model? model = some m) (tagged : m.shape.discriminator.isSome)
      (listed : below ∈ s.models) (heir : m.name ∈ below.ancestors) :
      Edge s k (s.key below.schema true)

theorem mem_propertyKeys {s : Spec} {shape : Shape Id} {k : Key} :
    k ∈ (s.propertyKeys shape).map (·.2) ↔
      ∃ name id, (name, id) ∈ shape.properties ∧ s.key id (decide (name ∈ shape.required)) = k := by
  simp only [propertyKeys, List.map_map, List.mem_map, Function.comp, Prod.exists]

theorem mem_subtypeKeys {s : Spec} {base : String} {k : Key} :
    k ∈ (s.subtypeKeys base).map (·.2) ↔
      ∃ m ∈ s.models, base ∈ m.ancestors ∧ s.key m.schema true = k := by
  simp only [subtypeKeys, List.map_map, List.mem_map, Function.comp, List.mem_filter,
    decide_eq_true_eq, and_assoc]

theorem links_freePlan (s : Spec) (label : String) (shape : Shape Id) :
    (Core.object (s.freePlan label shape)).links = (s.propertyKeys shape).map (·.2) := by
  simp [Core.links, freePlan]

theorem links_modelPlan (s : Spec) (m : Model) :
    (Core.object (s.modelPlan m)).links = (s.propertyKeys m.shape).map (·.2) ++
      if m.shape.discriminator.isSome then (s.subtypeKeys m.name).map (·.2) else [] := by
  simp only [Core.links, modelPlan, List.append_cancel_left_eq]
  split <;> rfl

theorem mem_links_iff {s : Spec} {k next : Key} : next ∈ (s.plan k).links ↔ s.Edge k next := by
  constructor
  · intro member
    cases kind : (s.node k.schema).kind with
    | primitive type format =>
      simp only [plan, kind] at member
      split at member <;> simp [Plan.links, Core.links] at member
    | array items =>
      cases items with
      | none => simp [plan, kind, Plan.links, Core.links] at member
      | some items =>
        have same : next = s.key items true := by
          simpa [plan, kind, Plan.links, Core.links] using member
        subst next
        exact .item kind
    | object shape =>
      simp only [plan, kind, Plan.links, objectCore] at member
      cases bound : shape.model with
      | none =>
        simp only [bound, links_freePlan, mem_propertyKeys] at member
        obtain ⟨name, id, declared, rfl⟩ := member
        exact .property kind bound declared
      | some model =>
        cases known : s.model? model with
        | none => simp [bound, known, Core.links] at member
        | some m =>
          simp only [bound, known, links_modelPlan, List.mem_append, mem_propertyKeys] at member
          rcases member with ⟨name, id, declared, rfl⟩ | member
          · exact .modelProperty kind bound known declared
          · split at member
            · rename_i tagged
              obtain ⟨below, listed, heir, rfl⟩ := mem_subtypeKeys.mp member
              exact .subtype kind bound known tagged listed heir
            · simp at member
    | _ => simp [plan, kind, Plan.links, Core.links] at member
  · intro edge
    cases edge with
    | item list => simp [plan, list, Plan.links, Core.links]
    | property object free declared =>
      simp only [plan, object, Plan.links, objectCore, free, links_freePlan]
      exact mem_propertyKeys.mpr ⟨_, _, declared, rfl⟩
    | modelProperty object bound known declared =>
      simp only [plan, object, Plan.links, objectCore, bound, known, links_modelPlan]
      exact List.mem_append_left _ (mem_propertyKeys.mpr ⟨_, _, declared, rfl⟩)
    | subtype object bound known tagged listed heir =>
      simp only [plan, object, Plan.links, objectCore, bound, known, links_modelPlan, tagged]
      exact List.mem_append_right _ (mem_subtypeKeys.mpr ⟨_, listed, heir, rfl⟩)

def Reached (s : Spec) (wanted : Key → Prop) (k : Key) : Prop :=
  ∃ root, wanted root ∧ Relation.ReflTransGen s.Edge root k

theorem reached_root {s : Spec} {wanted : Key → Prop} {k : Key} (h : wanted k) :
    s.Reached wanted k :=
  ⟨k, h, .refl⟩

theorem reached_next {s : Spec} {wanted : Key → Prop} {k next : Key}
    (h : s.Reached wanted k) (edge : s.Edge k next) : s.Reached wanted next := by
  obtain ⟨root, root_wanted, path⟩ := h
  exact ⟨root, root_wanted, path.tail edge⟩

/-- What is reached is the least set that holds the wanted keys and is closed under edges. -/
theorem reached_least {s : Spec} {wanted keep : Key → Prop} (roots : ∀ k, wanted k → keep k)
    (closed : ∀ k next, keep k → s.Edge k next → keep next) {k : Key} (h : s.Reached wanted k) :
    keep k := by
  obtain ⟨root, root_wanted, path⟩ := h
  induction path with
  | refl => exact roots root root_wanted
  | tail _ edge ih => exact closed _ _ ih edge

end Spec
end ApiPayload
