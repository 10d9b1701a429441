import ApiPayload.Schema.Spec

/-
What reading a document makes sure of: aliases come to an end, names of properties are distinct,
and models know the defaults of their properties.
-/
namespace ApiPayload

open Schema

namespace Entries

variable {κ : Type u} {α : Type v} [DecidableEq κ]

theorem keys_insert_nodup {es : List (κ × α)} (distinct : (keys es).Nodup) (key : κ) (value : α) :
    (keys (insert key value es)).Nodup := by
  rw [keys_insert]
  split
  · exact distinct
  · rename_i fresh
    exact List.nodup_append.mpr ⟨distinct, by simp, by simp; grind⟩

end Entries

def Schema.Shape.Distinct {link : Type} (shape : Shape link) : Prop :=
  (Entries.keys shape.properties).Nodup

structure Spec.WellFormed (s : Spec) : Prop where
  ends : ∀ id, ∃ k, Spec.aliasEnd? s.nodes id = some k
  distinct : ∀ id shape, (s.node id).kind = .object shape → shape.Distinct
  modelNode : ∀ m ∈ s.models, (s.node m.schema).kind = .object m.shape
  modelDistinct : ∀ m ∈ s.models, m.shape.Distinct
  defaults : ∀ m ∈ s.models, m.defaults = s.defaults m.shape.properties

namespace Spec

theorem shape_distinct (document : Json) (naming : Naming) (p : Pointer) (ms : Members) :
    (shape document naming p ms).Distinct := by
  refine List.foldlRecOn (motive := fun acc => (Entries.keys acc).Nodup) _ _ List.nodup_nil ?_
  intro acc distinct q _
  refine List.foldlRecOn (motive := fun acc => (Entries.keys acc).Nodup) _ _ distinct ?_
  intro acc distinct e _
  exact Entries.keys_insert_nodup distinct e.1 e.2

theorem kind_object {document : Json} {naming : Naming} {p : Pointer} {raw : Json}
    {found : Shape Pointer} (object : kind document naming p raw = .object found) :
    ∃ ms, found = shape document naming p ms := by
  unfold kind at object
  split at object
  · split at object
    · split at object <;> cases object
    · split at object
      · cases object
      · cases object
        exact ⟨_, rfl⟩
      · cases object
      · cases object
      · split at object <;> cases object
  · cases object

theorem nodeAt_distinct {document : Json} {naming : Naming} {order : List Pointer} {p : Pointer}
    {found : Shape Id} (object : (nodeAt document naming order p).kind = .object found) :
    found.Distinct := by
  simp only [nodeAt] at object
  cases read : kind document naming p ((p.find? document).getD .null) with
  | object own =>
    obtain ⟨ms, rfl⟩ := kind_object read
    rw [read] at object
    cases object
    rw [Shape.Distinct, Shape.map, Entries.keys_mapValues]
    exact shape_distinct document naming p ms
  | _ => rw [read] at object; cases object

theorem mem_modelsOf {nodes : Array Node} {order : List Pointer} {naming : Naming}
    {parents : Parents} {m : Model} (member : m ∈ modelsOf nodes order naming parents) :
    ∃ node, nodes[m.schema]? = some node ∧ node.kind = .object m.shape ∧
      m.defaults = defaultsOf nodes m.shape.properties := by
  simp only [modelsOf, List.mem_filterMap, Prod.exists] at member
  obtain ⟨p, name, _, made⟩ := member
  split at made
  · cases made
  · rename_i node found
    obtain ⟨shape, object, rfl⟩ := Option.map_eq_some_iff.mp made
    refine ⟨node, found, ?_, rfl⟩
    cases kind : node.kind <;> simp [Kind.shape?, kind] at object
    rw [object]

theorem ends_of_checkAliases {nodes : Array Node} (checked : checkAliases nodes = .ok ()) (id : Id) :
    ∃ k, aliasEnd? nodes id = some k := by
  by_cases numbered : id < nodes.size
  · unfold checkAliases at checked
    split at checked
    · cases checked
    · rename_i none_endless
      have ends := List.find?_eq_none.mp none_endless id (List.mem_range.mpr numbered)
      exact Option.ne_none_iff_exists'.mp (by simpa using ends)
  · have blank : (nodes[id]?.getD .blank).kind = .untyped := by simp [numbered, Node.blank]
    exact ⟨id, by simp only [aliasEnd?, concrete?, blank]⟩

theorem build_wellFormed {document : Json} {options : Options} {formats : Format.Registry} {s : Spec}
    (built : build document options formats = .ok s) : s.WellFormed := by
  simp only [build, bind, Except.bind] at built
  split at built
  · cases built
  · rename_i naming named
    split at built
    · cases built
    · rename_i order numbered
      split at built
      · cases built
      · rename_i checked
        cases built
        have distinct : ∀ (id : Id) (node : Node) (shape : Shape Id),
            (order.map (nodeAt document naming order)).toArray[id]? = some node →
            node.kind = .object shape → shape.Distinct := by
          intro id node shape found object
          simp only [List.getElem?_toArray, List.getElem?_map, Option.map_eq_some_iff] at found
          obtain ⟨p, _, rfl⟩ := found
          exact nodeAt_distinct object
        refine ⟨ends_of_checkAliases checked, ?_, ?_, ?_, ?_⟩
        · intro id shape object
          simp only [node] at object
          cases found : (order.map (nodeAt document naming order)).toArray[id]? with
          | none => rw [found] at object; cases object
          | some node =>
            rw [found] at object
            exact distinct id node shape found object
        · intro m member
          obtain ⟨node, found, object, _⟩ := mem_modelsOf member
          simp only [Spec.node, found, Option.getD_some, object]
        · intro m member
          obtain ⟨node, found, object, _⟩ := mem_modelsOf member
          exact distinct m.schema node m.shape found object
        · intro m member
          obtain ⟨_, _, _, same⟩ := mem_modelsOf member
          exact same

theorem build_given {document : Json} {options : Options} {formats : Format.Registry} {s : Spec}
    (built : build document options formats = .ok s) : s.options = options ∧ s.formats = formats := by
  simp only [build, bind, Except.bind] at built
  split at built
  · cases built
  · split at built
    · cases built
    · split at built
      · cases built
      · cases built
        exact ⟨rfl, rfl⟩

theorem WellFormed.concrete_spec {s : Spec} (h : s.WellFormed) (id : Id) :
    concrete? s.nodes (s.nodes.size + 1) id = some (s.concrete id) := by
  obtain ⟨k, ends⟩ := h.ends id
  rw [concrete, ends, Option.getD_some]
  exact ends

theorem concrete_self {s : Spec} {id : Id} (concrete : ∀ target, (s.node id).kind ≠ .ref target) :
    s.concrete id = id := by
  unfold Spec.concrete aliasEnd? concrete?
  split
  · rename_i target points
    exact absurd points (concrete target)
  · rfl

theorem concrete?_not_ref {nodes : Array Node} {n : Nat} {id k : Id}
    (found : concrete? nodes n id = some k) (target : Id) :
    (nodes[k]?.getD .blank).kind ≠ .ref target := by
  induction n generalizing id with
  | zero => cases found
  | succ n ih =>
    unfold concrete? at found
    split at found
    · exact ih found
    · rename_i other
      cases found
      exact other target

/-- What an alias stands for is no alias. -/
theorem WellFormed.concrete_concrete {s : Spec} (h : s.WellFormed) (id : Id) :
    s.concrete (s.concrete id) = s.concrete id :=
  concrete_self (concrete?_not_ref (h.concrete_spec id))

end Spec
end ApiPayload
