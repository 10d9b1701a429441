import Mathlib.Data.List.Nodup
import ApiPayload.Proofs.Keys
import ApiPayload.Proofs.Layers
import ApiPayload.Proofs.Numbering

/-
Models of a spec and the definitions that they come from. In a document without repeated keys a
definition has one place and one name, and the node at that place is bound to that name.
-/
namespace ApiPayload

open Schema

theorem Json.KeysUnique.walk {v w : Json} (h : v.KeysUnique) {ts : List String}
    (found : Pointer.walk ts v = some w) : w.KeysUnique :=
  Pointer.walk_induction (fun _ x items member => Json.keysUniqueItems_iff.mp items x member)
    (fun _ _ _ members member => Json.keysUniqueMembers_iff.mp members.2 _ member) h found

theorem Json.KeysUnique.find? {document v : Json} (h : document.KeysUnique) {p : Pointer}
    (found : p.find? document = some v) : v.KeysUnique :=
  h.walk found

namespace Spec

section Definitions
variable {document : Json} {naming : Naming} {p : Pointer} {key name : String} {v : Json}

theorem mem_definitions : (p, key, v) ∈ definitions document ↔ ∃ c ∈ containers, ∃ ms,
    c.find? document = some (.object ms) ∧ (key, v) ∈ ms ∧ p = c.child key := by
  rw [definitions, List.mem_flatMap]
  refine exists_congr fun c => and_congr_right fun _ => ?_
  constructor
  · intro member
    split at member
    · rename_i ms found
      obtain ⟨⟨other, x⟩, listed, same⟩ := List.mem_map.mp member
      cases same
      exact ⟨ms, found, listed, rfl⟩
    · cases member
  · rintro ⟨ms, found, listed, rfl⟩
    rw [found]
    exact List.mem_map.mpr ⟨(key, v), listed, rfl⟩

/-- The name that a definition would have as a model. -/
def modelName (d : Pointer × String × Json) : String := (modelMark d.2.2).getD d.2.1

theorem bindName_ok {naming' : Naming} {d : Pointer × String × Json}
    (h : bindName naming d = .ok naming') : (isObjectSchema d.2.2 = false ∧ naming' = naming) ∨
      isObjectSchema d.2.2 = true ∧ naming' = naming ++ [(d.1, modelName d)] ∧
        modelName d ∉ naming.map (·.2) := by
  unfold bindName at h
  split at h
  · rename_i object
    dsimp only at h
    split at h
    · cases h
    · rename_i fresh
      cases h
      refine .inr ⟨object, rfl, fun member => ?_⟩
      obtain ⟨e, listed, same⟩ := List.mem_map.mp member
      have different := List.find?_eq_none.mp fresh e listed
      exact absurd same (by simpa [modelName] using different)
  · rename_i other
    cases h
    exact .inl ⟨by simpa using other, rfl⟩

/-- Names are given to object definitions only, and none is given twice. -/
structure WellNamed (document : Json) (naming : Naming) : Prop where
  defined : ∀ p name, (p, name) ∈ naming → ∃ key v, (p, key, v) ∈ definitions document ∧
    isObjectSchema v = true ∧ name = modelName (p, key, v)
  distinct : (naming.map (·.2)).Nodup

theorem WellNamed.bindName {naming' : Naming} (h : WellNamed document naming)
    {d : Pointer × String × Json} (listed : d ∈ definitions document)
    (step : bindName naming d = .ok naming') : WellNamed document naming' := by
  rcases bindName_ok step with ⟨_, rfl⟩ | ⟨object, rfl, fresh⟩
  · exact h
  · constructor
    · intro p name member
      rcases List.mem_append.mp member with member | member
      · exact h.defined p name member
      · cases List.mem_singleton.mp member
        exact ⟨d.2.1, d.2.2, listed, object, rfl⟩
    · rw [List.map_append, List.nodup_append]
      refine ⟨h.distinct, by simp, ?_⟩
      rintro a member b last rfl
      obtain rfl : a = modelName d := by simpa using last
      exact fresh member

theorem WellNamed.foldlM {ds : List (Pointer × String × Json)} {acc : Naming}
    (h : WellNamed document acc) (listed : ∀ d ∈ ds, d ∈ definitions document)
    (named : ds.foldlM Spec.bindName acc = .ok naming) : WellNamed document naming := by
  induction ds generalizing acc with
  | nil =>
    rw [List.foldlM_nil] at named
    cases named
    exact h
  | cons d rest ih =>
    rw [List.foldlM_cons] at named
    obtain ⟨acc', step, named⟩ := Except.bind_eq_ok.mp named
    refine ih (h.bindName (listed d List.mem_cons_self) step) (fun d' member => ?_) named
    exact listed d' (List.mem_cons_of_mem d member)

theorem naming_ok (named : (definitions document).foldlM bindName [] = .ok naming) :
    WellNamed document naming := by
  have empty : WellNamed document [] := ⟨fun _ _ none => (nomatch none), List.nodup_nil⟩
  exact empty.foldlM (fun _ member => member) named

variable (unique : document.KeysUnique)
include unique

theorem find?_definition (listed : (p, key, v) ∈ definitions document) :
    p.find? document = some v := by
  obtain ⟨c, container, ms, found, member, rfl⟩ := mem_definitions.mp listed
  have leads : ∀ c ∈ containers, ∃ u ∈ c.tokens, u ≠ "" := by decide
  rw [Pointer.find?_child found (.inr (leads c container))]
  exact Entries.get?_of_mem (unique.find? found).1 member

omit unique in
theorem key_of_definition {other : String} {w : Json} (listed : (p, key, v) ∈ definitions document)
    (also : (p, other, w) ∈ definitions document) : key = other := by
  obtain ⟨c, container, _, _, _, same⟩ := mem_definitions.mp listed
  obtain ⟨c', container', _, _, _, same'⟩ := mem_definitions.mp also
  have lengths : c.tokens.length = c'.tokens.length := by
    have whole := congrArg (·.tokens.length) (same.symm.trans same')
    simpa [Pointer.child] using whole
  have different : ∀ c ∈ containers, ∀ c' ∈ containers, c.tokens.length = c'.tokens.length → c = c' := by
    decide
  obtain rfl := different c container c' container' lengths
  exact Pointer.child_injective (same.symm.trans same')

omit unique in
/-- A name is bound to one definition. -/
theorem place_unique (named : (definitions document).foldlM bindName [] = .ok naming) {q : Pointer}
    (bound : (p, name) ∈ naming) (also : (q, name) ∈ naming) : p = q :=
  congrArg Prod.fst (List.inj_on_of_nodup_map (naming_ok named).distinct bound also rfl)

/-- A definition is bound to one name. -/
theorem name_unique (named : (definitions document).foldlM bindName [] = .ok naming) {other : String}
    (bound : (p, name) ∈ naming) (also : (p, other) ∈ naming) : name = other := by
  obtain ⟨key, v, listed, _, rfl⟩ := (naming_ok named).defined p name bound
  obtain ⟨key', w, listed', _, rfl⟩ := (naming_ok named).defined p other also
  obtain rfl := key_of_definition listed listed'
  have same := (find?_definition unique listed).symm.trans (find?_definition unique listed')
  cases same
  rfl

theorem get?_naming (named : (definitions document).foldlM bindName [] = .ok naming)
    (bound : (p, name) ∈ naming) : Entries.get? p naming = some name := by
  cases found : Entries.get? p naming with
  | none =>
    rw [Entries.get?_eq_none_iff] at found
    exact absurd (List.mem_map_of_mem bound) found
  | some other => rw [name_unique unique named bound (Entries.mem_of_get? found)]

end Definitions

section Build
variable {document : Json} {options : Options} {formats : Format.Registry} {s : Spec}
  {naming : Naming} {order : List Pointer} {p q : Pointer} {ms : Members} {name : String}

def parents (document : Json) (naming : Naming) : Parents :=
  naming.map fun (p, name) => (name, directParents document naming p)

/-- The names and numbers by which a document was read into a spec. -/
structure ReadAs (s : Spec) (document : Json) (naming : Naming) (order : List Pointer) : Prop where
  same : s.document = document
  named : (definitions document).foldlM bindName [] = .ok naming
  numbered : numbering document = .ok order
  nodes : s.nodes = (order.map (nodeAt document naming order)).toArray
  models : s.models = modelsOf s.nodes order naming (parents document naming)
  formed : s.WellFormed

theorem read_as (built : build document options formats = .ok s) :
    ∃ naming order, s.ReadAs document naming order := by
  have formed := build_wellFormed built
  unfold build at built
  obtain ⟨naming, named, built⟩ := Except.bind_eq_ok.mp built
  obtain ⟨order, numbered, built⟩ := Except.bind_eq_ok.mp built
  obtain ⟨_, _, built⟩ := Except.bind_eq_ok.mp built
  cases built
  exact ⟨naming, order, rfl, named, numbered, rfl, rfl, formed⟩

theorem ReadAs.node_at (h : s.ReadAs document naming order) (numbered : p ∈ order) :
    s.node (order.idxOf p) = nodeAt document naming order p := by
  have inside := List.idxOf_lt_length_iff.mpr numbered
  have present : order[order.idxOf p]? = some p := by
    rw [List.getElem?_eq_getElem inside, List.getElem_idxOf]
  rw [node, h.nodes, List.getElem?_toArray, List.getElem?_map, present]
  rfl

/-- The definition that a model comes from. -/
structure Origin (document : Json) (naming : Naming) (order : List Pointer) (m : Model)
    (p : Pointer) (ms : Members) : Prop where
  named : (p, m.name) ∈ naming
  numbered : p ∈ order
  found : p.find? document = some (.object ms)
  direct : Entries.get? "$ref" ms = none
  object : declaredType ms = some "object"
  schema : m.schema = order.idxOf p
  shape : m.shape = (shape document naming p ms).map order.idxOf
  ancestors : m.ancestors = Spec.ancestors (parents document naming) m.name

theorem kind_eq_object {raw : Json} {found : Shape Pointer}
    (object : kind document naming p raw = .object found) : ∃ ms, raw = .object ms ∧
      Entries.get? "$ref" ms = none ∧ declaredType ms = some "object" ∧
        found = Schema.shape document naming p ms := by
  unfold kind at object
  split at object
  · rename_i ms
    split at object
    · split at object <;> cases object
    · rename_i direct
      split at object
      · cases object
      · rename_i declared
        cases object
        exact ⟨ms, rfl, direct, declared, rfl⟩
      · cases object
      · cases object
      · split at object <;> cases object
  · cases object

theorem ReadAs.origin (h : s.ReadAs document naming order) {m : Model} (member : m ∈ s.models) :
    ∃ p ms, Origin document naming order m p ms := by
  rw [h.models] at member
  simp only [modelsOf, List.mem_filterMap, Prod.exists] at member
  obtain ⟨p, name, bound, made⟩ := member
  split at made
  · cases made
  · rename_i node present
    obtain ⟨shape, object, rfl⟩ := Option.map_eq_some_iff.mp made
    have numbered : p ∈ order := by
      refine List.idxOf_lt_length_iff.mp ?_
      have inside := (Array.getElem?_eq_some_iff.mp present).1
      simpa [h.nodes] using inside
    have here := h.node_at numbered
    rw [Spec.node, present, Option.getD_some] at here
    subst here
    cases read : kind document naming p ((p.find? document).getD .null) with
    | object own =>
      obtain ⟨ms, raw, direct, declared, rfl⟩ := kind_eq_object read
      have found : p.find? document = some (.object ms) := by
        cases found : p.find? document with
        | none => rw [found] at raw; cases raw
        | some v => rw [found] at raw; exact congrArg some raw
      simp only [nodeAt, read, Kind.map, Kind.shape?, Option.some.injEq] at object
      exact ⟨p, ms, bound, numbered, found, direct, declared, rfl, object.symm, rfl⟩
    | _ =>
      simp only [nodeAt, read, Kind.map, Kind.shape?] at object
      cases object

section Models
variable {m : Model}

theorem of_model? {name : String} (known : s.model? name = some m) : m ∈ s.models ∧ m.name = name :=
  ⟨List.mem_of_find?_eq_some known, by simpa using List.find?_some known⟩

theorem ReadAs.model?_of_mem (h : s.ReadAs document naming order) (member : m ∈ s.models) :
    s.model? m.name = some m := by
  have known : ∃ other ∈ s.models, decide (other.name = m.name) = true :=
    ⟨m, member, decide_eq_true rfl⟩
  obtain ⟨other, found⟩ := Option.isSome_iff_exists.mp (List.find?_isSome.mpr known)
  obtain ⟨listed, same⟩ := of_model? found
  obtain ⟨p, ms, own⟩ := h.origin member
  obtain ⟨q, ms', its⟩ := h.origin listed
  have place : q = p := place_unique h.named its.named (same ▸ own.named)
  subst place
  have raw := its.found.symm.trans own.found
  cases raw
  have shapes := its.shape.trans own.shape.symm
  have defaults : other.defaults = m.defaults := by
    rw [h.formed.defaults other listed, h.formed.defaults m member, shapes]
  have ancestors := its.ancestors.trans (same ▸ own.ancestors.symm)
  have schemas := its.schema.trans own.schema.symm
  rw [model?, found]
  cases other
  cases m
  simp_all

theorem ReadAs.name_injective (h : s.ReadAs document naming order) (member : m ∈ s.models)
    {other : Model} (listed : other ∈ s.models) (same : m.name = other.name) : m = other := by
  have found := h.model?_of_mem member
  rw [same, h.model?_of_mem listed] at found
  exact (Option.some.inj found).symm

/-- No fault is hidden in what is merged into a model. -/
theorem ReadAs.faultless (h : s.ReadAs document naming order)
    (origin : Origin document naming order m p ms) (e : SpecError) :
    .fault e ∉ layers document p := by
  intro merged
  obtain ⟨raw, found, provided⟩ := provided_of_numbered h.numbered origin.numbered
  obtain rfl := Option.some.inj (origin.found.symm.trans found)
  have needed : .error e ∈ needs document p (.object ms) := by
    simp only [needs, origin.direct, origin.object]
    exact List.mem_flatMap.mpr ⟨_, merged, List.mem_singleton_self _⟩
  obtain ⟨q, same, _⟩ := provided _ needed
  cases same

section Bound
variable (unique : document.KeysUnique)
include unique

/-- The schema of a model is bound to it. -/
theorem ReadAs.bound (h : s.ReadAs document naming order) (member : m ∈ s.models) :
    m.shape.model = some m.name := by
  obtain ⟨p, ms, origin⟩ := h.origin member
  have listed := get?_naming unique h.named origin.named
  obtain ⟨key, v, defined, _, name⟩ := (naming_ok h.named).defined p m.name origin.named
  have same := (find?_definition unique defined).symm.trans origin.found
  cases same
  rw [origin.shape]
  show ((Entries.get? "x-model" ms).bind Json.string?).or (Entries.get? p naming) = some m.name
  rw [listed]
  cases mark : Entries.get? "x-model" ms with
  | none => rfl
  | some x =>
    cases text : x.string? with
    | none => simp [text]
    | some written =>
      have marked : (Json.object ms).member? "x-model" = some x := mark
      simp only [modelName, modelMark, marked, text, Option.getD_some] at name
      simp [text, name]

end Bound
end Models
end Build

end Spec
end ApiPayload
