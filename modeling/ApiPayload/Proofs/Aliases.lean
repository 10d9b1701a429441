import ApiPayload.Proofs.Collapse
import ApiPayload.Proofs.Inheritance
import ApiPayload.Proofs.ModelNodes

/-
Aliases. A chain of references that comes to an end meets no place twice, so a count of all places is bound
enough to follow it; and nodes are followed to the node of the place that their pointers are followed to.
-/
namespace ApiPayload

section Chains
variable {α : Type} {r : α → α → Prop} {x y k : α}

/-- A chain of a number of steps. -/
inductive Steps (r : α → α → Prop) : Nat → α → α → Prop where
  | done (x : α) : Steps r 0 x x
  | next {n : Nat} {x y z : α} (first : r x y) (rest : Steps r n y z) : Steps r (n + 1) x z

theorem Steps.leads {n : Nat} (steps : Steps r n x y) : Relation.ReflTransGen r x y := by
  induction steps with
  | done => exact .refl
  | next first _ ih => exact .head first ih

variable (functional : ∀ x y z, r x y → r x z → y = z) (last : ∀ y, ¬ r k y)
include functional last

/-- What leads to an end does not lead back to itself. -/
theorem no_way_round (leads : Relation.ReflTransGen r x k) : ¬ Relation.TransGen r x x := by
  induction leads using Relation.ReflTransGen.head_induction_on with
  | refl =>
    intro round
    obtain ⟨y, first, _⟩ := Relation.TransGen.head'_iff.mp round
    exact last y first
  | head step _ ih =>
    intro round
    obtain ⟨y, first, back⟩ := Relation.TransGen.head'_iff.mp round
    obtain rfl := functional _ _ _ step first
    exact ih (.tail' back step)

/-- A chain that comes to an end is not longer than a list of all places that steps lead to. -/
theorem exists_steps {rooms : List α} (within : ∀ x y, r x y → y ∈ rooms)
    (leads : Relation.ReflTransGen r x k) : ∃ n ≤ rooms.length, Steps r n x k := by
  -- the places met on the way are different, as each of them leads to where the chain has come
  have room : ∀ met : List α, met.Nodup → met ⊆ rooms → (∀ y ∈ met, Relation.ReflTransGen r y x) →
      ∃ n, n + met.length ≤ rooms.length ∧ Steps r n x k := by
    induction leads using Relation.ReflTransGen.head_induction_on with
    | refl =>
      intro met distinct inside _
      have few := (List.subperm_of_subset distinct inside).length_le
      exact ⟨0, by omega, .done k⟩
    | @head _ next step rest ih =>
      intro met distinct inside before
      have fresh : next ∉ met := fun known =>
        no_way_round functional last rest (.tail' (before next known) step)
      have before' : ∀ y ∈ next :: met, Relation.ReflTransGen r y next := by
        intro y known
        rcases List.mem_cons.mp known with rfl | known
        · exact .refl
        · exact (before y known).tail step
      obtain ⟨n, few, steps⟩ := ih (next :: met) (List.nodup_cons.mpr ⟨fresh, distinct⟩)
        (List.cons_subset.mpr ⟨within _ next step, inside⟩) before'
      rw [List.length_cons] at few
      exact ⟨n + 1, by omega, .next step steps⟩
  obtain ⟨n, few, steps⟩ := room [] List.nodup_nil (List.nil_subset _) fun _ none => nomatch none
  exact ⟨n, few, steps⟩

end Chains

open Schema

namespace Spec

section Arena
variable {nodes : Array Node} {id k t : Id}

/-- One node stands for another. -/
def Aliases (nodes : Array Node) (id target : Id) : Prop :=
  (nodes[id]?.getD .blank).kind = .ref target

/-- A chain of aliases from one node ends at another. -/
structure StandsFor (nodes : Array Node) (id k : Id) : Prop where
  leads : Relation.ReflTransGen (Aliases nodes) id k
  last : ∀ target, ¬ Aliases nodes k target

theorem aliases_unique (nodes : Array Node) (id t u : Id) (h : Aliases nodes id t)
    (also : Aliases nodes id u) : t = u :=
  Kind.ref.inj (h.symm.trans also)

theorem concrete?_of_steps {n fuel : Nat} (steps : Steps (Aliases nodes) n id k)
    (last : ∀ target, ¬ Aliases nodes k target) (enough : n < fuel) : concrete? nodes fuel id = some k := by
  induction steps generalizing fuel with
  | done x =>
    obtain ⟨fuel, rfl⟩ := Nat.exists_eq_succ_of_ne_zero (Nat.ne_of_gt enough)
    rw [concrete?]
    split
    · rename_i target points
      exact absurd points (last target)
    · rfl
  | @next _ id target _ first _ ih =>
    obtain ⟨fuel, rfl⟩ := Nat.exists_eq_succ_of_ne_zero (Nat.ne_zero_of_lt enough)
    have points : (nodes[id]?.getD .blank).kind = .ref target := first
    rw [concrete?, points]
    exact ih last (Nat.lt_of_succ_lt_succ enough)

theorem standsFor_of_concrete? {fuel : Nat} (found : concrete? nodes fuel id = some k) : StandsFor nodes id k := by
  refine ⟨?_, concrete?_not_ref found⟩
  induction fuel generalizing id with
  | zero => cases found
  | succ fuel ih =>
    rw [concrete?] at found
    split at found
    · rename_i target points
      exact .head points (ih found)
    · cases found
      exact .refl

theorem lt_of_aliases (h : Aliases nodes id t) : id < nodes.size := by
  by_contra outside
  rw [Aliases, Array.getElem?_eq_none (Nat.le_of_not_lt outside)] at h
  cases h

/-- Counting steps up to the number of nodes finds every end, and finds none where there is none. -/
theorem checkAliases_iff (ranged : ∀ id target, Aliases nodes id target → target < nodes.size) :
    checkAliases nodes = .ok () ↔ ∀ id < nodes.size, ∃ k < nodes.size, StandsFor nodes id k := by
  constructor
  · intro checked id inside
    obtain ⟨k, found⟩ := ends_of_checkAliases checked id
    have ends := standsFor_of_concrete? found
    refine ⟨k, ?_, ends⟩
    rcases Relation.ReflTransGen.cases_tail ends.leads with rfl | ⟨before, _, step⟩
    · exact inside
    · exact ranged before k step
  · intro ends
    have none : (List.range nodes.size).find? (fun id => (aliasEnd? nodes id).isNone) = none := by
      refine List.find?_eq_none.mpr fun id member => ?_
      obtain ⟨k, _, ended⟩ := ends id (List.mem_range.mp member)
      have within : ∀ x y, Aliases nodes x y → y ∈ List.range nodes.size := fun _ _ step =>
        List.mem_range.mpr (ranged _ _ step)
      obtain ⟨n, few, steps⟩ := exists_steps (aliases_unique nodes) ended.last within ended.leads
      rw [List.length_range] at few
      have found : aliasEnd? nodes id = some k :=
        concrete?_of_steps steps ended.last (Nat.lt_succ_of_le few)
      rw [found]
      exact Bool.false_ne_true
    rw [checkAliases, none]

/-- A chain through all nodes has an end; one that comes late to a circle has none. -/
example : let link target : Node := { Node.blank with kind := .ref target }
    checkAliases #[link 1, link 2, .blank] = .ok () ∧
      checkAliases #[link 1, link 2, link 1] = .error (.invalidSchema .root .circularAlias) :=
  ⟨rfl, rfl⟩

end Arena
end Spec

namespace Schema

section Places
variable {document : Json} {source p q : Pointer} {n fuel : Nat} {seen : List Pointer}

theorem EndsAt.last (ends : EndsAt document p q) (r : Pointer) : ¬ Refers document q r := by
  rintro ⟨reference, referring, _⟩
  rw [ends.direct] at referring
  cases referring

theorem unalias_of_steps (steps : Steps (Refers document) n p q)
    (direct : (q.find? document).bind (Json.member? "$ref") = none) (enough : n < fuel) :
    unalias document source fuel p = .ok q := by
  induction steps generalizing fuel with
  | done x =>
    obtain ⟨fuel, rfl⟩ := Nat.exists_eq_succ_of_ne_zero (Nat.ne_of_gt enough)
    rw [unalias, direct]
  | next first rest ih =>
    obtain ⟨fuel, rfl⟩ := Nat.exists_eq_succ_of_ne_zero (Nat.ne_zero_of_lt enough)
    obtain ⟨reference, referring, aimed⟩ := first
    rw [unalias, referring]
    exact Except.bind_eq_ok.mpr ⟨_, aimed, ih direct (Nat.lt_of_succ_lt_succ enough)⟩

/-- Remembering the places of a chain raises no alarm where the chain ends. -/
theorem follow_of_steps (steps : Steps (Refers document) n p q)
    (direct : (q.find? document).bind (Json.member? "$ref") = none)
    (before : ∀ x ∈ seen, Relation.TransGen (Refers document) x p) (enough : n < fuel) :
    follow document source fuel seen p = .ok q := by
  induction steps generalizing fuel seen with
  | done x =>
    obtain ⟨fuel, rfl⟩ := Nat.exists_eq_succ_of_ne_zero (Nat.ne_of_gt enough)
    rw [follow, direct]
  | @next _ p next q first rest ih =>
    obtain ⟨fuel, rfl⟩ := Nat.exists_eq_succ_of_ne_zero (Nat.ne_zero_of_lt enough)
    have ends : EndsAt document p q := ⟨.head first rest.leads, direct⟩
    have fresh : p ∉ seen := fun known =>
      no_way_round (fun _ _ _ here there => here.unique there) ends.last ends.leads (before p known)
    have before' : ∀ x ∈ p :: seen, Relation.TransGen (Refers document) x next := by
      intro x known
      rcases List.mem_cons.mp known with rfl | known
      · exact .single first
      · exact (before x known).tail first
    obtain ⟨reference, referring, aimed⟩ := first
    rw [follow, referring]
    dsimp only
    rw [if_neg fresh]
    exact Except.bind_eq_ok.mpr ⟨next, aimed, ih direct before' (Nat.lt_of_succ_lt_succ enough)⟩

/-- The references of a document are bound enough for both ways to follow them. -/
theorem EndsAt.followed (ends : EndsAt document p q) (source : Pointer) :
    unalias document source (aliasLimit document) p = .ok q ∧
      ∀ limit, aliasLimit document ≤ limit → follow document source limit [] p = .ok q := by
  have within : ∀ x y, Refers document x y → y ∈ referenced document := by
    rintro x y ⟨reference, referring, aimed⟩
    obtain ⟨v, present, referring⟩ := Option.bind_eq_some_iff.mp referring
    exact target_referenced aimed (reference_within present referring)
  obtain ⟨n, few, steps⟩ :=
    exists_steps (fun _ _ _ here there => here.unique there) ends.last within ends.leads
  have enough : n < aliasLimit document :=
    Nat.lt_succ_of_le (Nat.le_trans few (length_referenced document))
  refine ⟨unalias_of_steps steps ends.direct enough, fun limit deep => ?_⟩
  exact follow_of_steps steps ends.direct (fun _ none => nomatch none) (Nat.lt_of_lt_of_le enough deep)

end Places
end Schema

namespace Spec

section Nodes
variable {document : Json} {options : Options} {formats : Format.Registry} {s : Spec}
  {naming : Naming} {order : List Pointer} {id k t owner : Id} {p q aim : Pointer} {v reference : Json}
  {shape : Shape Id} {part : Json × Nat} {d m : Model} {name : String}

/-- A value at some place that is a reference to a place. -/
def AimsAt (p : Pointer) (v : Json) (aim : Pointer) : Prop :=
  ∃ reference, v.member? "$ref" = some reference ∧ target p reference = .ok aim

theorem kind_direct (direct : v.member? "$ref" = none) (q : Pointer) : kind document naming p v ≠ .ref q := by
  intro points
  unfold kind at points
  split at points
  · rename_i ms
    have absent : Entries.get? "$ref" ms = none := direct
    rw [absent] at points
    dsimp only at points
    split at points
    · cases points
    · cases points
    · cases points
    · cases points
    · split at points <;> cases points
  · cases points

theorem kind_reference (aims : AimsAt p v q) : kind document naming p v = .ref q := by
  obtain ⟨reference, referring, aimed⟩ := aims
  cases v with
  | object ms =>
    have here : Entries.get? "$ref" ms = some reference := referring
    rw [kind, here]
    dsimp only
    rw [aimed]
  | _ => cases referring

theorem needs_reference (referring : v.member? "$ref" = some reference) :
    needs document p v = [target p reference] := by
  cases v with
  | object ms =>
    have here : Entries.get? "$ref" ms = some reference := referring
    rw [needs, here]
  | _ => cases referring

section Read
variable (h : s.ReadAs document naming order)
include h

theorem ReadAs.pointer_injective (inside : id < s.nodes.size) (inside' : k < s.nodes.size)
    (same : (s.node id).pointer = (s.node k).pointer) : id = k := by
  have here := h.linked.schemaAt id inside
  rw [same, h.linked.schemaAt k inside'] at here
  exact (Option.some.inj here).symm

theorem ReadAs.raw_at (inside : id < s.nodes.size) :
    (s.node id).pointer.find? document = some (s.node id).raw ∧
      Provided document order (s.node id).pointer := by
  rw [h.size_eq] at inside
  have provided := provided_of_numbered h.numbered (List.getElem_mem inside)
  rw [h.pointer_eq inside, h.node_eq inside]
  exact ⟨nodeAt_raw provided, provided⟩

theorem ReadAs.refers_iff (inside : id < s.nodes.size) :
    Refers document (s.node id).pointer aim ↔ AimsAt (s.node id).pointer (s.node id).raw aim := by
  rw [Refers, (h.raw_at inside).1]
  rfl

/-- A node that is read from a reference is an alias of the node at the place that it names. -/
theorem ReadAs.aliases_of_reference (inside : id < s.nodes.size)
    (referring : (s.node id).raw.member? "$ref" = some reference) :
    ∃ t, Aliases s.nodes id t ∧ AimsAt (s.node id).pointer (s.node id).raw (s.node t).pointer := by
  obtain ⟨found, raw, found', provided⟩ := h.raw_at inside
  obtain rfl := Option.some.inj (found.symm.trans found')
  rw [needs_reference referring] at provided
  obtain ⟨q, aimed, numbered⟩ := provided _ (List.mem_singleton_self _)
  have aims : AimsAt (s.node id).pointer (s.node id).raw q := ⟨reference, referring, aimed⟩
  have place : (s.node (order.idxOf q)).pointer = q := by
    rw [h.node_at numbered]
    rfl
  refine ⟨order.idxOf q, ?_, place.symm ▸ aims⟩
  exact (h.node_raw inside).1.trans (congrArg (Kind.map order.idxOf) (kind_reference aims))

theorem ReadAs.refers (points : Aliases s.nodes id t) :
    Refers document (s.node id).pointer (s.node t).pointer := by
  have inside := lt_of_aliases points
  have kinds : (s.node id).kind = .ref t := points
  rw [h.refers_iff inside]
  cases referring : (s.node id).raw.member? "$ref" with
  | some reference =>
    obtain ⟨u, points', aims⟩ := h.aliases_of_reference inside referring
    rwa [aliases_unique _ _ _ _ points points']
  | none =>
    rw [(h.node_raw inside).1] at kinds
    cases read : kind document naming (s.node id).pointer (s.node id).raw with
    | ref q => exact absurd read (kind_direct referring q)
    | _ =>
      rw [read] at kinds
      cases kinds

theorem ReadAs.direct (inside : id < s.nodes.size) (last : ∀ t, ¬ Aliases s.nodes id t) :
    ((s.node id).pointer.find? document).bind (Json.member? "$ref") = none := by
  rw [(h.raw_at inside).1, Option.bind_some]
  cases referring : (s.node id).raw.member? "$ref" with
  | none => rfl
  | some reference =>
    obtain ⟨t, points, _⟩ := h.aliases_of_reference inside referring
    exact absurd points (last t)

theorem ReadAs.standsFor (id : Id) : StandsFor s.nodes id (s.concrete id) :=
  standsFor_of_concrete? (h.formed.concrete_spec id)

/-- The place of a node leads to the place of the node that it stands for. -/
theorem ReadAs.endsAt (inside : id < s.nodes.size) :
    EndsAt document (s.node id).pointer (s.node (s.concrete id)).pointer := by
  have stands := h.standsFor id
  refine ⟨stands.leads.lift (fun id => (s.node id).pointer) fun _ _ points => h.refers points, ?_⟩
  exact h.direct (h.linked.concrete id inside) stands.last

/-- The place that a node refers to leads to where the node ends. -/
theorem ReadAs.endsAt_aim (inside : id < s.nodes.size)
    (aims : AimsAt (s.node id).pointer (s.node id).raw aim) :
    EndsAt document aim (s.node (s.concrete id)).pointer := by
  have refers := (h.refers_iff inside).mpr aims
  have ends := h.endsAt inside
  rcases Relation.ReflTransGen.cases_head ends.leads with same | ⟨next, step, leads⟩
  · rw [same] at refers
    exact absurd refers (ends.last aim)
  · obtain rfl := step.unique refers
    exact ⟨leads, ends.direct⟩

end Read

section Models

/-- One model has a part that refers to the definition of another, be it by other names. -/
def Derives (s : Spec) (d m : Model) : Prop :=
  ∃ part ∈ allOf (membersAt s.document (s.place d)), ∃ aim, AimsAt (s.place d) part aim ∧
    EndsAt s.document aim (s.place m)

variable (h : s.ReadAs document naming order) (unique : document.KeysUnique)
include h unique

/-- A name that is bound to a definition is the name of a model. -/
theorem ReadAs.model_of_bound (bound : (p, name) ∈ naming) :
    ∃ m ∈ s.models, m.name = name ∧ s.place m = p := by
  have models : s.models.map (fun m => (m.schema, m.name)) =
      (objectDefinitions document).map fun d => (order.idxOf d.1, modelName d) :=
    h.models_map unique fun d _ m named schema => by rw [named, schema]
  rw [h.naming_eq] at bound
  obtain ⟨d, defined, made⟩ := List.mem_map.mp bound
  cases made
  have listed : (order.idxOf d.1, modelName d) ∈ s.models.map fun m => (m.schema, m.name) := by
    rw [models]
    exact List.mem_map.mpr ⟨d, defined, rfl⟩
  obtain ⟨m, member, same⟩ := List.mem_map.mp listed
  have schema : m.schema = order.idxOf d.1 := congrArg Prod.fst same
  refine ⟨m, member, congrArg Prod.snd same, ?_⟩
  rw [place, schema, h.node_at (definition_numbered h.numbered (mem_objectDefinitions.mp defined).1)]
  rfl

theorem ReadAs.mem_above (member : d ∈ s.models) : name ∈ above (parents document naming) d.name ↔
    ∃ m ∈ s.models, m.name = name ∧ s.Derives d m := by
  obtain ⟨p, ms, origin⟩ := h.origin member
  rw [get?_parents h.named origin.named, mem_directParents, ← h.place_eq origin]
  simp only [Derives, h.same]
  constructor
  · rintro ⟨i, part, reference, aim, q, present, referring, aimed, ended, named⟩
    obtain ⟨m, listed, known, rfl⟩ := h.model_of_bound unique (Entries.mem_of_get? named)
    exact ⟨m, listed, known, part, List.mem_of_getElem? present, aim, ⟨reference, referring, aimed⟩,
      endsAt_of_unalias ended⟩
  · rintro ⟨m, listed, rfl, part, present, aim, ⟨reference, referring, aimed⟩, ends⟩
    obtain ⟨i, present⟩ := List.mem_iff_getElem?.mp present
    obtain ⟨q, ms', origin'⟩ := h.origin listed
    rw [h.place_eq origin'] at ends
    exact ⟨i, part, reference, aim, q, present, referring, aimed, (ends.followed _).1,
      get?_naming unique h.named origin'.named⟩

/-- The ancestors of a model are the models that it derives from, by way of any number of models. -/
theorem ReadAs.mem_ancestors_iff (member : d ∈ s.models) (listed : m ∈ s.models) :
    m.name ∈ d.ancestors ↔
      m ≠ d ∧ Relation.TransGen (fun a b => b ∈ s.models ∧ s.Derives a b) d m := by
  obtain ⟨_, _, origin⟩ := h.origin member
  rw [origin.ancestors, mem_ancestors]
  have down : ∀ name, Relation.TransGen (fun a b => b ∈ above (parents document naming) a) d.name name →
      ∃ m ∈ s.models, m.name = name ∧
        Relation.TransGen (fun a b => b ∈ s.models ∧ s.Derives a b) d m := by
    intro name leads
    induction leads with
    | single step =>
      obtain ⟨m, listed, named, derives⟩ := (h.mem_above unique member).mp step
      exact ⟨m, listed, named, .single ⟨listed, derives⟩⟩
    | tail _ step ih =>
      obtain ⟨a, known, rfl, leads⟩ := ih
      obtain ⟨m, listed, named, derives⟩ := (h.mem_above unique known).mp step
      exact ⟨m, listed, named, leads.tail ⟨listed, derives⟩⟩
  constructor
  · rintro ⟨different, named⟩
    obtain ⟨other, known, same, leads⟩ := down m.name named
    obtain rfl := h.name_injective known listed same
    exact ⟨fun same => different (congrArg Model.name same), leads⟩
  · rintro ⟨different, leads⟩
    refine ⟨fun same => different (h.name_injective listed member same), ?_⟩
    clear different listed down
    induction leads with
    | single step => exact .single ((h.mem_above unique member).mpr ⟨_, step.1, rfl, step.2⟩)
    | @tail a b leads step ih =>
      have known : a ∈ s.models := by
        rcases Relation.TransGen.tail'_iff.mp leads with ⟨_, _, known, _⟩
        exact known
      exact ih.tail ((h.mem_above unique known).mpr ⟨b, step.1, rfl, step.2⟩)

end Models

/-- A node and its place are followed to one end: the node by numbers, and the place by references, whether
these are counted or the places on the way are remembered. -/
structure FollowedAlike (s : Spec) (id : Id) : Prop where
  counted : aliasEnd? s.nodes id = some (s.concrete id)
  stands : StandsFor s.nodes id (s.concrete id)
  inside : s.concrete id < s.nodes.size
  unaliased : ∀ source, unalias s.document source (aliasLimit s.document) (s.node id).pointer =
    .ok (s.node (s.concrete id)).pointer
  followed : ∀ source limit, aliasLimit s.document ≤ limit →
    follow s.document source limit [] (s.node id).pointer = .ok (s.node (s.concrete id)).pointer

/-- A part of an object and a schema that refer to one place: what the part stands for, merges and makes a
parent of is what the schema is transformed as. -/
structure MeansSame (s : Spec) (owner : Id) (shape : Shape Id) (part : Json × Nat) (aim : Pointer) (id : Id) :
    Prop where
  fragment : ∀ q, PartAt s.document (s.node owner).pointer part q ↔ q = (s.node (s.concrete id)).pointer
  merges : ∀ q, Relation.ReflTransGen (Inherits s.document) (s.node (s.concrete id)).pointer q →
    (∀ name ∈ propertyNames (membersAt s.document q), name ∈ Entries.keys shape.properties) ∧
      ∀ name ∈ requiredNames (membersAt s.document q), name ∈ shape.required
  parent : ∀ m ∈ s.models, EndsAt s.document aim (s.place m) ↔ m.schema = s.concrete id
  key : ∀ required, s.key id required = s.key (s.concrete id) required
  transformed : ∀ (uses : List Use) (side : Side) (required : Bool) (v : side.In),
    (s.transform ((s.after uses).on side) id required).2.call side.direction true v =
      (s.transform ((s.after uses).on side) (s.concrete id) required).2.call side.direction true v

section Read
variable (h : s.ReadAs document naming order)
include h

theorem ReadAs.followedAlike (inside : id < s.nodes.size) : s.FollowedAlike id := by
  have ends := h.endsAt inside
  rw [← h.same] at ends
  refine ⟨h.formed.concrete_spec id, h.standsFor id, h.linked.concrete id inside, ?_, ?_⟩
  · exact fun source => (ends.followed source).1
  · exact fun source => (ends.followed source).2

theorem ReadAs.meansSame (object : (s.node owner).kind = .object shape)
    (member : part ∈ (allOf (membersAt s.document (s.node owner).pointer)).zipIdx)
    (aims : AimsAt (s.node owner).pointer part.1 aim) (inside : id < s.nodes.size)
    (aims' : AimsAt (s.node id).pointer (s.node id).raw aim) : s.MeansSame owner shape part aim id := by
  have ends : EndsAt s.document aim (s.node (s.concrete id)).pointer := by
    rw [h.same]
    exact h.endsAt_aim inside aims'
  have stands : PartAt s.document (s.node owner).pointer part (s.node (s.concrete id)).pointer := by
    obtain ⟨reference, referring, aimed⟩ := aims
    exact .reference referring aimed ends
  have inherits : Inherits s.document (s.node owner).pointer (s.node (s.concrete id)).pointer :=
    ⟨part, member, stands⟩
  obtain ⟨_, _, _, collapses⟩ := h.collapses object
  have keys : ∀ required, s.key id required = s.key (s.concrete id) required := by
    intro required
    rw [key, key, h.formed.concrete_concrete]
  refine ⟨fun q => ?_, fun q leads => ⟨fun name own => ?_, fun name own => ?_⟩, fun m listed => ?_, keys,
    fun uses side required v => ?_⟩
  · exact ⟨fun also => also.unique stands, fun same => same ▸ stands⟩
  · exact (collapses.properties name).mpr ⟨q, leads.head inherits, own⟩
  · exact (collapses.required name).mpr ⟨q, leads.head inherits, own⟩
  · constructor
    · intro also
      exact h.pointer_injective (h.linked.models m listed).1 (h.linked.concrete id inside) (also.unique ends)
    · intro same
      rw [place, same]
      exact ends
  · rw [s.call_after uses side side.direction, s.call_after uses side side.direction, keys]

end Read

/-- Counting steps finds every end of aliases and raises an alarm where there is none. In a spec, nodes and
their places are followed to one end; a part of an object and a schema that refer to one place mean the same
by it; and models inherit from the models that their parts lead to. -/
theorem aliases_followed_alike :
    (∀ nodes : Array Node, (∀ id target, Aliases nodes id target → target < nodes.size) →
      (checkAliases nodes = .ok () ↔ ∀ id < nodes.size, ∃ k < nodes.size, StandsFor nodes id k)) ∧
    ∀ document options formats s, build document options formats = .ok s →
      (∀ id < s.nodes.size, s.FollowedAlike id) ∧
      (∀ owner shape, (s.node owner).kind = .object shape →
        ∀ part ∈ (allOf (membersAt s.document (s.node owner).pointer)).zipIdx,
        ∀ aim, AimsAt (s.node owner).pointer part.1 aim →
        ∀ id < s.nodes.size, AimsAt (s.node id).pointer (s.node id).raw aim →
          s.MeansSame owner shape part aim id) ∧
      (document.KeysUnique → ∀ d ∈ s.models, ∀ m ∈ s.models, m.name ∈ d.ancestors ↔
        m ≠ d ∧ Relation.TransGen (fun a b => b ∈ s.models ∧ s.Derives a b) d m) := by
  refine ⟨fun nodes ranged => checkAliases_iff ranged, fun document options formats s built => ?_⟩
  obtain ⟨naming, order, h⟩ := read_as built
  refine ⟨fun id inside => h.followedAlike inside, ?_, ?_⟩
  · exact fun owner shape object part member aim aims id inside aims' =>
      h.meansSame object member aims inside aims'
  · exact fun unique d member m listed => h.mem_ancestors_iff unique member listed

end Nodes

/-- A post that is reached by two names in a row, once as a part and once as a property. -/
def relay : Json :=
  .object [("definitions", .object [
    ("Far", .object [("$ref", .string "#/definitions/Near")]),
    ("Near", .object [("$ref", .string "#/definitions/Post")]),
    ("Post", .object [("required", .array [.string "place"]),
      ("properties", .object [("place", .object [("type", .string "string")])])]),
    ("Runner", .object [("allOf", .array [.object [("$ref", .string "#/definitions/Far")]]),
      ("properties", .object [("goal", .object [("$ref", .string "#/definitions/Far")])])])])]

theorem relay_unique : relay.KeysUnique := by
  simp [relay, Json.KeysUnique, Json.KeysUniqueItems, Json.KeysUniqueMembers, Entries.keys]

theorem aliases_followed_alike_in_relay : ∃ s, build relay .standard .standard = .ok s ∧
    checkAliases s.nodes = .ok () ∧
    ∃ runner ∈ s.models, ∃ post ∈ s.models, ∃ part id, runner.name = "Runner" ∧ post.name = "Post" ∧
      Entries.get? "goal" runner.shape.properties = some id ∧ s.concrete id = post.schema ∧
      s.FollowedAlike id ∧ s.MeansSame runner.schema runner.shape part ⟨["definitions", "Far"]⟩ id ∧
      Relation.TransGen (fun a b => b ∈ s.models ∧ s.Derives a b) runner post := by
  have made : (build relay .standard .standard).toOption.any (fun s => decide
      (∃ runner ∈ s.models, ∃ post ∈ s.models, runner.name = "Runner" ∧ post.name = "Post" ∧
        post.name ∈ runner.ancestors ∧ ∃ e ∈ runner.shape.properties, e.1 = "goal" ∧
        Entries.get? "goal" runner.shape.properties = some e.2 ∧ s.concrete e.2 = post.schema ∧
        (s.node e.2).raw.member? "$ref" = some (.string "#/definitions/Far") ∧
        ∃ part ∈ (allOf (membersAt s.document (s.node runner.schema).pointer)).zipIdx,
          part.1.member? "$ref" = some (.string "#/definitions/Far"))) = true := by
    decide +kernel
  obtain ⟨s, built, found⟩ := Except.exists_of_any made
  obtain ⟨runner, member, post, listed, named, named', heir, ⟨_, id⟩, present, rfl, property, same, referring,
    part, among, referring'⟩ := of_decide_eq_true found
  obtain ⟨exact, inSpec⟩ := aliases_followed_alike
  obtain ⟨alike, means, heirs⟩ := inSpec relay .standard .standard s built
  obtain ⟨_, _, h⟩ := read_as built
  have inside : id < s.nodes.size := (h.linked.models runner member).2 _ present
  have aimed : ∀ source, target source (.string "#/definitions/Far") = .ok ⟨["definitions", "Far"]⟩ := by
    intro source
    exact target_eq_ok.mpr ⟨_, "/definitions/Far".toList, rfl, by decide, by decide⟩
  have ranged : ∀ id t, Aliases s.nodes id t → t < s.nodes.size := by
    intro id t points
    refine h.linked.links id (lt_of_aliases points) t ?_
    have kinds : (s.node id).kind = .ref t := points
    rw [kinds]
    exact List.mem_singleton_self t
  refine ⟨s, built, (exact s.nodes ranged).mpr fun id inside => ?_, runner, member, post, listed, part, id,
    named, named', property, same, alike id inside, ?_, ?_⟩
  · exact ⟨s.concrete id, (alike id inside).inside, (alike id inside).stands⟩
  · exact means runner.schema runner.shape (h.formed.modelNode runner member) part among _
      ⟨_, referring', aimed _⟩ id inside ⟨_, referring, aimed _⟩
  · exact ((heirs relay_unique runner member post listed).mp heir).2

end Spec
end ApiPayload
