import ApiPayload.Proofs.Descent
import ApiPayload.Proofs.RootSchemas

/-
Models and the nodes of their definitions. Each definition of an object makes one model, in the order of the
document, and the node of the definition is bound to that model and has its shape; so the plan of a model's
schema is the plan of the model.
-/
namespace ApiPayload.Spec

open Schema
open Pointer (Branch valueAt? spelled)

variable {document v : Json}

/-- The entries of an object, with their pointers. -/
def entriesUnder (document : Json) (above : List Branch) : List (Pointer × String × Json) :=
  match valueAt? above document with
  | some (.object ms) => ms.map fun e => ((spelled above).child e.1, e)
  | _ => []

/-- The definitions of objects, those of `/definitions` first. -/
def objectDefinitions (document : Json) : List (Pointer × String × Json) :=
  (entriesUnder document [.member "definitions"] ++
    entriesUnder document [.member "components", .member "schemas"]).filter fun d => isObjectSchema d.2.2

section Definitions

theorem find?_definitions (document : Json) :
    (⟨["definitions"]⟩ : Pointer).find? document = valueAt? [.member "definitions"] document :=
  (find?_key (by decide) (by decide) (by decide) document).trans member?_of_valueAt.symm

theorem find?_components (document : Json) : (⟨["components", "schemas"]⟩ : Pointer).find? document =
    valueAt? [.member "components", .member "schemas"] document := by
  rw [find?_schemas, ← member?_of_valueAt]
  refine Eq.trans (congrArg _ (funext fun v => ?_)) (valueAt?_append [.member "components"] _ _).symm
  cases v <;> rfl

theorem definitions_eq (document : Json) : definitions document =
    entriesUnder document [.member "definitions"] ++
      entriesUnder document [.member "components", .member "schemas"] := by
  have first : (⟨["definitions"]⟩ : Pointer) = spelled [.member "definitions"] := rfl
  have second : (⟨["components", "schemas"]⟩ : Pointer) =
      spelled [.member "components", .member "schemas"] := rfl
  rw [definitions, containers, List.flatMap_cons, List.flatMap_singleton, find?_definitions,
    find?_components, first, second]
  rfl

theorem mem_objectDefinitions {d : Pointer × String × Json} : d ∈ objectDefinitions document ↔
    d ∈ definitions document ∧ isObjectSchema d.2.2 = true := by
  rw [objectDefinitions, ← definitions_eq, List.mem_filter]

theorem bindings_eq (document : Json) : (definitions document).filterMap binding? =
    (objectDefinitions document).map fun d => (d.1, modelName d) := by
  rw [objectDefinitions, ← definitions_eq, ← List.filterMap_eq_map, List.filterMap_filter]
  rfl

/-- What passes for the definition of an object is read as an object. -/
theorem kind_of_objectSchema (document : Json) (naming : Naming) (p : Pointer)
    (object : isObjectSchema v = true) :
    ∃ ms, v = .object ms ∧ kind document naming p v = .object (shape document naming p ms) := by
  cases v with
  | object ms =>
    obtain ⟨direct, declared⟩ := Bool.and_eq_true_iff.mp object
    have absent : Entries.get? "$ref" ms = none := by
      simpa [Entries.contains] using direct
    refine ⟨ms, rfl, ?_⟩
    simp only [kind, absent, of_decide_eq_true declared]
  | _ => cases object

end Definitions

section Models
variable {options : Options} {formats : Format.Registry} {s : Spec} {naming : Naming}
  {order : List Pointer} {m : Model}

theorem ReadAs.naming_eq (h : s.ReadAs document naming order) :
    naming = (objectDefinitions document).map fun d => (d.1, modelName d) := by
  have none : (([] : Naming).map (·.2)).Nodup := List.nodup_nil
  obtain ⟨same, _⟩ := (foldlM_bindName none).mp h.named
  rw [same, List.nil_append, bindings_eq]

/-- What is said of models, read off from the definitions that they come from. -/
theorem ReadAs.models_map (h : s.ReadAs document naming order) (unique : document.KeysUnique)
    {α : Type} {f : Model → α} {g : Pointer × String × Json → α}
    (each : ∀ d ∈ objectDefinitions document, ∀ m : Model, m.name = modelName d →
      m.schema = order.idxOf d.1 → f m = g d) :
    s.models.map f = (objectDefinitions document).map g := by
  rw [h.models, modelsOf, List.map_filterMap]
  refine (congrArg (List.filterMap _) h.naming_eq).trans ?_
  rw [List.filterMap_map, ← List.filterMap_eq_map]
  refine List.filterMap_congr fun d member => ?_
  obtain ⟨listed, object⟩ := mem_objectDefinitions.mp member
  have numbered := definition_numbered h.numbered listed
  obtain ⟨ms, raw, read⟩ := kind_of_objectSchema document naming d.1 object
  have found : s.nodes[order.idxOf d.1]? = some (nodeAt document naming order d.1) := by
    rw [h.nodes, List.getElem?_toArray, List.getElem?_map, List.getElem?_idxOf numbered]
    rfl
  have whole : (nodeAt document naming order d.1).kind =
      .object ((shape document naming d.1 ms).map order.idxOf) := by
    rw [nodeAt, find?_definition unique listed, Option.getD_some, read]
    rfl
  simp only [Function.comp_apply, found, whole, Kind.shape?, Option.map_some]
  exact congrArg some (each d member _ rfl rfl)

theorem keys_defaults (s : Spec) (properties : List (String × Id)) :
    (Entries.keys (s.defaults properties)).Sublist (Entries.keys properties) := by
  rw [defaults, defaultsOf, Entries.keys, Entries.keys, List.map_filterMap, ← List.filterMap_eq_map]
  induction properties with
  | nil => exact .slnil
  | cons e rest ih =>
    rw [List.filterMap_cons, List.filterMap_cons]
    cases (s.nodes[(aliasEnd? s.nodes e.2).getD e.2]?.getD .blank).default with
    | none => exact ih.cons _
    | some d => exact ih.cons_cons _

/-- A default is that of the schema behind the property, and there is none elsewhere. -/
theorem get?_defaults_iff {properties : List (String × Id)} (distinct : (Entries.keys properties).Nodup)
    (name : String) : Entries.get? name (s.defaults properties) =
      (Entries.get? name properties).bind fun id => (s.node (s.concrete id)).default := by
  cases declared : Entries.get? name properties with
  | some id => exact get?_defaults distinct (Entries.mem_of_get? declared)
  | none =>
    rw [Entries.get?_eq_none_iff] at declared
    rw [Option.bind_none, Entries.get?_eq_none_iff]
    exact fun member => declared ((keys_defaults s properties).subset member)

/-- The object definitions of a document make one model each, in their order and under names of their own.
The node of a model is read from its definition, bound to its name and of its shape; the model has the
defaults that stand behind its properties, and its node is prepared by the model's own plan. -/
theorem models_match_nodes (built : build document options formats = .ok s)
    (unique : document.KeysUnique) :
    (s.models.map fun m => (m.name, (s.node m.schema).pointer, (s.node m.schema).raw)) =
      ((objectDefinitions document).map fun d => (modelName d, d.1, d.2.2)) ∧
    (s.models.map (·.name)).Nodup ∧
    ∀ m ∈ s.models, s.model? m.name = some m ∧
      (s.node m.schema).kind = .object m.shape ∧ m.shape.model = some m.name ∧
      (Entries.keys m.defaults).Sublist (Entries.keys m.shape.properties) ∧
      (∀ name, Entries.get? name m.defaults =
        (Entries.get? name m.shape.properties).bind fun id => (s.node (s.concrete id)).default) ∧
      ∀ required, (s.plan (s.key m.schema required)).core = .object (s.modelPlan m) := by
  obtain ⟨naming, order, h⟩ := read_as built
  have names : s.models.map (·.name) = naming.map (·.2) := by
    rw [h.models_map unique fun d _ m name _ => name, h.naming_eq, List.map_map]
    rfl
  refine ⟨h.models_map unique fun d member m name schema => ?_, ?_, fun m member => ?_⟩
  · obtain ⟨listed, _⟩ := mem_objectDefinitions.mp member
    rw [name, schema, h.node_at (definition_numbered h.numbered listed), nodeAt,
      find?_definition unique listed]
    rfl
  · rw [names]
    exact (naming_ok h.named).distinct
  · rw [h.formed.defaults m member]
    exact ⟨h.model?_of_mem member, h.formed.modelNode m member, h.bound unique member,
      keys_defaults s _, get?_defaults_iff (h.formed.modelDistinct m member), h.core_model unique member⟩

end Models

/-- Orders refer to things before these are defined, by another name; a mark that is no text names nothing,
and hides the title. -/
def bazaar : Json := .object [
  ("components", .object [("schemas", .object [
    ("Item", .object [("title", .string "Thing"), ("type", .string "object")])])]),
  ("definitions", .object [
    ("Order", .object [("x-model", .string "Purchase"), ("required", .array [.string "item"]),
      ("properties", .object [("item", .object [("$ref", .string "#/components/schemas/Item")]),
        ("count", .object [("$ref", .string "#/definitions/Count")])])]),
    ("Count", .object [("type", .string "integer"), ("default", .number (.int 1))]),
    ("Odd", .object [("x-model", .null), ("title", .string "Even"), ("allOf", .array [])])])]

theorem bazaar_unique : bazaar.KeysUnique := by
  simp [bazaar, Json.KeysUnique, Json.KeysUniqueItems, Json.KeysUniqueMembers, Entries.keys]

theorem models_match_nodes_in_bazaar : ∃ s, build bazaar .standard .standard = .ok s ∧
    bazaar.KeysUnique ∧
    (s.models.map fun m => (m.name, (s.node m.schema).pointer.text)) =
      [("Purchase", "/definitions/Order"), ("Odd", "/definitions/Odd"),
        ("Thing", "/components/schemas/Item")] ∧
    ∃ m ∈ s.models, m.name = "Purchase" ∧ (s.node m.schema).kind = .object m.shape ∧
      m.shape.model = some "Purchase" ∧ Entries.get? "count" m.defaults = some (.number (.int 1)) := by
  have made : (build bazaar .standard .standard).toOption.any (fun s => decide
      (∃ m ∈ s.models, m.name = "Purchase" ∧ ∃ id, Entries.get? "count" m.shape.properties = some id ∧
        (s.node (s.concrete id)).default = some (.number (.int 1)))) = true := by
    decide +kernel
  have listed : ((objectDefinitions bazaar).map fun d => (modelName d, d.1.text)) =
      [("Purchase", "/definitions/Order"), ("Odd", "/definitions/Odd"),
        ("Thing", "/components/schemas/Item")] := by
    decide +kernel
  obtain ⟨s, built, found⟩ := Except.exists_of_any made
  obtain ⟨m, member, named, id, property, default⟩ := of_decide_eq_true found
  obtain ⟨models, _, each⟩ := models_match_nodes built bazaar_unique
  obtain ⟨_, object, bound, _, defaults, _⟩ := each m member
  refine ⟨s, built, bazaar_unique, ?_, m, member, named, object, named ▸ bound, ?_⟩
  · have texts := congrArg (List.map fun e : String × Pointer × Json => (e.1, e.2.1.text)) models
    rw [List.map_map, List.map_map] at texts
    exact texts.trans listed
  · rw [defaults, property]
    exact default

end ApiPayload.Spec
