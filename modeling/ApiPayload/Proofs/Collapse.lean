import ApiPayload.Proofs.Inversion
import ApiPayload.Proofs.Locations
import ApiPayload.Proofs.PostOrder

/-
Merging as a whole. The fragments behind an object are listed in post-order, its own fragment last. A
property is that of the last fragment that declares it and stands where its name was declared first, and
all that a fragment requires is required. Fragments are told apart by their pointers; so a location
counts once if it is always spelled alike.
-/
namespace ApiPayload

namespace Entries

variable {κ α : Type} [DecidableEq κ] {key : κ} {value : α}

/-- Names stand where they were inserted first. -/
theorem keys_ofList (es : List (κ × α)) : keys (ofList es) = (keys es).eraseDups := by
  induction es using List.reverseRecOn with
  | nil => rfl
  | append_singleton es e ih =>
    have grown : ofList (es ++ [e]) = insert e.1 e.2 (ofList es) := by
      rw [ofList, List.foldl_append]
      rfl
    have names : keys (es ++ [e]) = keys es ++ [e.1] := List.map_append
    have known : e.1 ∈ (keys es).eraseDups ↔ e.1 ∈ keys es := List.mem_eraseDups
    rw [grown, keys_insert, ih, names, List.eraseDups_append]
    by_cases listed : e.1 ∈ keys es
    · rw [if_pos (known.mpr listed)]
      simp [List.removeAll, listed]
    · rw [if_neg fun again => listed (known.mp again)]
      simp [List.removeAll, listed, List.eraseDups_cons]

theorem get?_foldl_of_absent {es : List (κ × α)} (absent : key ∉ keys es) (acc : List (κ × α)) :
    get? key (es.foldl (fun acc e => insert e.1 e.2 acc) acc) = get? key acc := by
  induction es generalizing acc with
  | nil => rfl
  | cons e rest ih =>
    obtain ⟨other, later⟩ := not_or.mp fun here => absent (List.mem_cons.mpr here)
    rw [List.foldl_cons, ih later, get?_insert, if_neg fun same => other same.symm]

/-- What is inserted under one key only, is found there. -/
theorem get?_foldl_of_same {es : List (κ × α)} (listed : key ∈ keys es)
    (same : ∀ other, (key, other) ∈ es → other = value) (acc : List (κ × α)) :
    get? key (es.foldl (fun acc e => insert e.1 e.2 acc) acc) = some value := by
  induction es generalizing acc with
  | nil => cases listed
  | cons e rest ih =>
    rw [List.foldl_cons]
    by_cases later : key ∈ keys rest
    · exact ih later (fun other member => same other (List.mem_cons_of_mem e member)) _
    · obtain ⟨name, other⟩ := e
      obtain rfl : key = name := (List.mem_cons.mp listed).resolve_right later
      rw [get?_foldl_of_absent later, get?_insert, if_pos rfl, same other List.mem_cons_self]

end Entries

theorem exists_last {α : Type} {P : α → Prop} {xs : List α} (h : ∃ x ∈ xs, P x) :
    ∃ before x after, xs = before ++ x :: after ∧ P x ∧ ∀ y ∈ after, ¬ P y := by
  induction xs with
  | nil =>
    obtain ⟨x, none, _⟩ := h
    cases none
  | cons x rest ih =>
    by_cases later : ∃ y ∈ rest, P y
    · obtain ⟨before, y, after, rfl, found, last⟩ := ih later
      exact ⟨x :: before, y, after, rfl, found, last⟩
    · obtain ⟨y, member, found⟩ := h
      rcases List.mem_cons.mp member with rfl | member
      · exact ⟨[], y, rest, rfl, found, fun z listed other => later ⟨z, listed, other⟩⟩
      · exact absurd ⟨y, member, found⟩ later

namespace Schema

variable {document : Json} {source p q r : Pointer} {qs : List Pointer} {name : String}

section Parts

/-- A place that refers to another. -/
def Refers (document : Json) (p q : Pointer) : Prop :=
  ∃ reference, (p.find? document).bind (Json.member? "$ref") = some reference ∧
    target p reference = .ok q

/-- Where aliases end that start at a place. -/
structure EndsAt (document : Json) (p q : Pointer) : Prop where
  leads : Relation.ReflTransGen (Refers document) p q
  direct : (q.find? document).bind (Json.member? "$ref") = none

theorem Refers.unique (h : Refers document p q) (also : Refers document p r) : q = r := by
  obtain ⟨reference, referring, aimed⟩ := h
  obtain ⟨other, referring', aimed'⟩ := also
  obtain rfl := Option.some.inj (referring.symm.trans referring')
  exact Except.ok.inj (aimed.symm.trans aimed')

theorem EndsAt.unique (h : EndsAt document p q) (also : EndsAt document p r) : q = r := by
  have stays : ∀ {q s}, (q.find? document).bind (Json.member? "$ref") = none →
      ¬ Refers document q s := by
    rintro q s direct ⟨reference, referring, _⟩
    rw [direct] at referring
    cases referring
  induction h.leads using Relation.ReflTransGen.head_induction_on with
  | refl =>
    rcases Relation.ReflTransGen.cases_head also.leads with same | ⟨s, refers, _⟩
    · exact same
    · exact absurd refers (stays h.direct)
  | head step rest ih =>
    rcases Relation.ReflTransGen.cases_head also.leads with rfl | ⟨s, refers, leads⟩
    · exact absurd step (stays also.direct)
    · obtain rfl := step.unique refers
      exact ih ⟨rest, h.direct⟩ ⟨leads, also.direct⟩

theorem endsAt_of_unalias {fuel : Nat} (found : unalias document source fuel p = .ok q) :
    EndsAt document p q := by
  induction fuel generalizing p with
  | zero => cases found
  | succ fuel ih =>
    rw [unalias] at found
    split at found
    · rename_i direct
      cases found
      exact ⟨.refl, direct⟩
    · rename_i reference referring
      obtain ⟨next, aimed, found⟩ := Except.bind_eq_ok.mp found
      have ends := ih found
      exact ⟨.head ⟨reference, referring, aimed⟩ ends.leads, ends.direct⟩

/-- The fragment that a member of `allOf` stands for: its own, or where its reference ends. -/
inductive PartAt (document : Json) (p : Pointer) : Json × Nat → Pointer → Prop where
  | inline {part : Json} {i : Nat} (direct : part.member? "$ref" = none) :
      PartAt document p (part, i) ((p.child "allOf").item i)
  | reference {part reference : Json} {i : Nat} {aim q : Pointer}
      (referring : part.member? "$ref" = some reference) (aimed : target p reference = .ok aim)
      (ends : EndsAt document aim q) : PartAt document p (part, i) q

/-- The fragments that the members of `allOf` stand for, in order. -/
def PartsAt (document : Json) (p : Pointer) (qs : List Pointer) : Prop :=
  List.Forall₂ (PartAt document p) (allOf (membersAt document p)).zipIdx qs

/-- One fragment has another among its parts. -/
def Inherits (document : Json) (p q : Pointer) : Prop :=
  ∃ part ∈ (allOf (membersAt document p)).zipIdx, PartAt document p part q

theorem PartAt.unique {part : Json × Nat} (h : PartAt document p part q)
    (also : PartAt document p part r) : q = r := by
  cases h with
  | inline direct =>
    cases also with
    | inline => rfl
    | reference referring =>
      rw [direct] at referring
      cases referring
  | reference referring aimed ends =>
    cases also with
    | inline direct =>
      rw [direct] at referring
      cases referring
    | reference referring' aimed' ends' =>
      obtain rfl := Option.some.inj (referring.symm.trans referring')
      obtain rfl := Except.ok.inj (aimed.symm.trans aimed')
      exact ends.unique ends'

theorem PartsAt.unique {rs : List Pointer} (h : PartsAt document p qs) (also : PartsAt document p rs) :
    qs = rs := by
  have functional : Relator.RightUnique (PartAt document p) := fun _ _ _ here there =>
    here.unique there
  exact functional.forall₂ h also

theorem PartsAt.mem_iff (h : PartsAt document p qs) : q ∈ qs ↔ Inherits document p q := by
  constructor
  · intro listed
    obtain ⟨part, member, stands⟩ := left_of_forall₂ h listed
    exact ⟨part, member, stands⟩
  · rintro ⟨part, member, stands⟩
    obtain ⟨r, listed, stands'⟩ := right_of_forall₂ h member
    rwa [stands.unique stands']

theorem partAt_of_placed {part : Json × Nat} (placed : partPlace document p part.2 part.1 = .ok q) :
    PartAt document p part q := by
  obtain ⟨part, i⟩ := part
  rcases (partPlace_eq_ok.mp placed).1 with ⟨direct, rfl⟩ | ⟨reference, aim, referring, aimed, ended⟩
  · exact .inline direct
  · exact .reference referring aimed (endsAt_of_unalias ended)

theorem partsAt_of_layers (parts : Layer.parts document (.fragment p) = qs.map .fragment) :
    PartsAt document p qs := by
  rw [Layer.parts, ← List.forall₂_eq_eq_eq, List.forall₂_map_left_iff,
    List.forall₂_map_right_iff] at parts
  refine parts.imp fun part q made => partAt_of_placed ?_
  dsimp only at made
  split at made
  · rename_i placed
    cases made
    exact placed
  · cases made

/-- Without faults, the layers of a fragment are its parts in post-order. -/
theorem layers_postorder (faultless : ∀ e, .fault e ∉ layers document p) :
    ∃ qs, layers document p = qs.map .fragment ∧ Postorder (PartsAt document) ∅ [p] qs := by
  have listed : Postorder (fun l below => Layer.parts document l = below) ∅ [.fragment p]
      (layers document p) := by
    refine Walk.postorder_lists (layers_confined document p) ?_ ?_
    · intro v found
      exact places_subset_rooms List.mem_cons_self found
    · rw [List.length_map]
      exact length_rooms document p
  have injective : Function.Injective Layer.fragment := fun _ _ same => Layer.fragment.inj same
  have steps : ∀ p qs, Layer.parts document (.fragment p) = qs.map .fragment → PartsAt document p qs :=
    fun _ _ parts => partsAt_of_layers parts
  have named : ∀ l, l ∈ (∅ : Set Layer) ∨ l ∈ layers document p → ∃ q, Layer.fragment q = l := by
    rintro l (known | member)
    · exact absurd known (Set.notMem_empty l)
    · cases l with
      | fragment q => exact ⟨q, rfl⟩
      | fault e => exact absurd member (faultless e)
  obtain ⟨start, qs, same, layers, renamed⟩ := listed.of_renamed injective steps named
  obtain ⟨r, rest, rfl⟩ : ∃ r rest, start = r :: rest := by
    cases start with
    | nil => cases same
    | cons r rest => exact ⟨r, rest, rfl⟩
  obtain ⟨first, none⟩ := List.cons.inj same
  obtain rfl := injective first
  obtain rfl := List.map_eq_nil_iff.mp none.symm
  exact ⟨qs, layers, renamed⟩

end Parts

section Merged

/-- All properties of some fragments, inserted in order. -/
def mergedOf (document : Json) (qs : List Pointer) : List (String × Pointer) :=
  Entries.ofList (qs.flatMap (ownProperties document))

theorem shape_properties {naming : Naming} {ms : Members}
    (fragments : layers document p = qs.map .fragment) :
    (shape document naming p ms).properties = mergedOf document qs := by
  have places : (layers document p).filterMap Layer.place? = qs := by
    rw [fragments, List.filterMap_map]
    exact List.filterMap_some
  rw [shape, places, mergedOf, Entries.ofList, List.foldl_flatMap]

theorem keys_ownProperties (document : Json) (q : Pointer) :
    Entries.keys (ownProperties document q) = propertyNames (membersAt document q) := by
  rw [ownProperties_eq, Entries.keys, List.map_map]
  exact List.map_id _

theorem keys_flatMap_own (document : Json) (qs : List Pointer) :
    Entries.keys (qs.flatMap (ownProperties document)) =
      qs.flatMap fun q => propertyNames (membersAt document q) := by
  rw [Entries.keys, List.map_flatMap]
  exact congrArg (fun f => qs.flatMap f) (funext (keys_ownProperties document))

theorem keys_mergedOf : Entries.keys (mergedOf document qs) =
    (qs.flatMap fun q => propertyNames (membersAt document q)).eraseDups := by
  rw [mergedOf, Entries.keys_ofList, keys_flatMap_own]

/-- A property is that of the last fragment that declares it. -/
theorem get?_mergedOf {before after : List Pointer}
    (declared : name ∈ propertyNames (membersAt document q))
    (last : ∀ r ∈ after, name ∉ propertyNames (membersAt document r)) :
    Entries.get? name (mergedOf document (before ++ q :: after)) = some (ownPlace q name) := by
  have absent : name ∉ Entries.keys (after.flatMap (ownProperties document)) := by
    rw [keys_flatMap_own]
    intro member
    obtain ⟨r, listed, declared⟩ := List.mem_flatMap.mp member
    exact last r listed declared
  have listed : name ∈ Entries.keys (ownProperties document q) := by
    rw [keys_ownProperties]
    exact declared
  have same : ∀ place, (name, place) ∈ ownProperties document q → place = ownPlace q name := by
    intro place member
    rw [ownProperties_eq] at member
    obtain ⟨_, _, made⟩ := List.mem_map.mp member
    cases made
    rfl
  rw [mergedOf, Entries.ofList, List.flatMap_append, List.flatMap_cons, List.foldl_append,
    List.foldl_append, Entries.get?_foldl_of_absent absent]
  exact Entries.get?_foldl_of_same listed same _

end Merged
end Schema

namespace Pointer

theorem text_child (p : Pointer) (key : String) : (p.child key).text = p.text ++ "/" ++ escape key := by
  refine String.ext ?_
  simp only [child, text, String.toList_append, String.toList_ofList, List.flatMap_append,
    List.flatMap_cons, List.flatMap_nil, List.append_nil, List.append_assoc]
  rfl

end Pointer

theorem Schema.text_ownPlace (q : Pointer) (name : String) :
    (ownPlace q name).text = q.text ++ "/properties/" ++ Pointer.escape name := by
  have key : Pointer.escape "properties" = "properties" := by decide
  rw [ownPlace, Pointer.text_child, Pointer.text_child, key]
  simp only [String.append_assoc]
  rfl

namespace Spec

open Schema

variable {s : Spec} {document : Json} {options : Options} {formats : Format.Registry}
  {naming : Naming} {order : List Pointer} {id : Id} {found : Shape Id} {p q r : Pointer}
  {qs : List Pointer} {name : String}

/-- How the fragments behind a fragment, listed in some order, make the shape of an object. -/
structure Collapses (s : Spec) (p : Pointer) (qs : List Pointer) (shape : Shape Id) : Prop where
  once : qs.Nodup
  closure : ∀ q, q ∈ qs ↔ Relation.ReflTransGen (Inherits s.document) p q
  properties : ∀ name, name ∈ Entries.keys shape.properties ↔
    ∃ q, Relation.ReflTransGen (Inherits s.document) p q ∧
      name ∈ propertyNames (membersAt s.document q)
  required : ∀ name, name ∈ shape.required ↔
    ∃ q, Relation.ReflTransGen (Inherits s.document) p q ∧
      name ∈ requiredNames (membersAt s.document q)
  own : ∀ name ∈ propertyNames (membersAt s.document p), ∃ id,
    Entries.get? name shape.properties = some id ∧
      s.schemaAt? (p.text ++ "/properties/" ++ Pointer.escape name) = some id
  inherited : ∀ name ∈ Entries.keys shape.properties, ∃ before q after id,
    qs = before ++ q :: after ∧ name ∈ propertyNames (membersAt s.document q) ∧
      (∀ r ∈ after, name ∉ propertyNames (membersAt s.document r)) ∧
      Entries.get? name shape.properties = some id ∧
      s.schemaAt? (q.text ++ "/properties/" ++ Pointer.escape name) = some id
  order : Entries.keys shape.properties =
    (qs.flatMap fun q => propertyNames (membersAt s.document q)).eraseDups

section Nodes
variable (h : s.ReadAs document naming order)
include h

theorem ReadAs.schemaAt?_ownPlace (numbered : ownPlace q name ∈ order) :
    s.schemaAt? (q.text ++ "/properties/" ++ Pointer.escape name) =
      some (order.idxOf (ownPlace q name)) := by
  have inside := List.idxOf_lt_length_iff.mpr numbered
  have at_node := h.linked.schemaAt _ (h.size_eq ▸ inside)
  rwa [h.pointer_eq inside, List.getElem_idxOf, text_ownPlace] at at_node

/-- The fragment that an object node was read from. -/
theorem ReadAs.fragment_of_object (object : (s.node id).kind = .object found) :
    (s.node id).pointer ∈ order ∧ ∃ ms, (s.node id).pointer.find? document = some (.object ms) ∧
      Entries.get? "$ref" ms = none ∧ declaredType ms = some "object" ∧
      found = (shape document naming (s.node id).pointer ms).map order.idxOf := by
  have inside : id < order.length := by
    by_contra outside
    have blank : s.node id = .blank := by
      rw [node, Array.getElem?_eq_none (h.size_eq ▸ Nat.le_of_not_lt outside)]
      rfl
    rw [blank] at object
    cases object
  have numbered : order[id] ∈ order := List.getElem_mem inside
  obtain ⟨raw, present, _⟩ := provided_of_numbered h.numbered numbered
  rw [h.node_eq inside] at object
  rw [h.pointer_eq inside]
  cases read : kind document naming order[id] raw with
  | object own =>
    obtain ⟨ms, rfl, direct, declared, rfl⟩ := kind_eq_object read
    rw [nodeAt_eq present, read] at object
    exact ⟨numbered, ms, present, direct, declared, (Kind.object.inj object).symm⟩
  | _ =>
    rw [nodeAt_eq present, read] at object
    cases object

/-- All that is merged into a numbered object is sound, and its properties have numbers. -/
theorem ReadAs.layers_numbered {ms : Members} (numbered : p ∈ order)
    (present : p.find? document = some (.object ms)) (direct : Entries.get? "$ref" ms = none)
    (declared : declaredType ms = some "object") {l : Layer} (merged : l ∈ layers document p) :
    ∃ q, l = .fragment q ∧ ∀ name ∈ propertyNames (membersAt document q), ownPlace q name ∈ order := by
  obtain ⟨raw, found, provided⟩ := provided_of_numbered h.numbered numbered
  obtain rfl := Option.some.inj (present.symm.trans found)
  rw [needs_layers ms direct declared] at provided
  cases l with
  | fault e =>
    obtain ⟨_, same, _⟩ := provided _ (List.mem_flatMap.mpr ⟨_, merged, List.mem_singleton_self _⟩)
    cases same
  | fragment q =>
    refine ⟨q, rfl, fun name own => ?_⟩
    have needed : .ok (ownPlace q name) ∈ Layer.needs document (.fragment q) := by
      rw [own_needs]
      exact List.mem_map_of_mem own
    obtain ⟨_, same, listed⟩ := provided _ (List.mem_flatMap.mpr ⟨_, merged, needed⟩)
    cases same
    exact listed

/-- Where all references are canonical, no two of the fragments behind another are at one location. -/
theorem ReadAs.layers_apart (unique : document.KeysUnique)
    (straight : ∀ r ∈ referenced document, r.Canonical document) (numbered : p ∈ order)
    {path : List Pointer.Branch} (one : .fragment q ∈ layers document p)
    (other : .fragment r ∈ layers document p) (here : q.location? document = some path)
    (there : r.location? document = some path) : q = r := by
  have passed : Passed document (Pointer.Canonical document) :=
    ⟨canonical_descends document, straight⟩
  obtain ⟨start, root, needed⟩ := (mem_numbering h.numbered).mp numbered
  have rooted := roots_passed (canonical_descends document) unique (Pointer.root_canonical document)
    start root
  have own : p.Canonical document := passed_of_needed passed rooted needed
  exact (passed.layer own one).unique (passed.layer own other) here there

omit h in
theorem keys_shape {ms : Members} (fragments : layers document p = qs.map .fragment) :
    Entries.keys ((shape document naming p ms).map order.idxOf).properties =
      (qs.flatMap fun q => propertyNames (membersAt document q)).eraseDups := by
  rw [Shape.map, Entries.keys_mapValues, shape_properties fragments, keys_mergedOf]

omit h in
theorem mem_keys_shape {ms : Members} (fragments : layers document p = qs.map .fragment) :
    name ∈ Entries.keys ((shape document naming p ms).map order.idxOf).properties ↔
      ∃ q ∈ qs, name ∈ propertyNames (membersAt document q) := by
  rw [keys_shape fragments, List.mem_eraseDups, List.mem_flatMap]

/-- The last fragment that declares a property gives it. -/
theorem ReadAs.property_of_last {ms : Members} {before after : List Pointer}
    (fragments : layers document p = (before ++ q :: after).map .fragment)
    (numbered : ownPlace q name ∈ order) (own : name ∈ propertyNames (membersAt document q))
    (last : ∀ r ∈ after, name ∉ propertyNames (membersAt document r)) :
    ∃ id, Entries.get? name ((shape document naming p ms).map order.idxOf).properties = some id ∧
      s.schemaAt? (q.text ++ "/properties/" ++ Pointer.escape name) = some id := by
  refine ⟨order.idxOf (ownPlace q name), ?_, h.schemaAt?_ownPlace numbered⟩
  rw [Shape.map, Entries.get?_mapValues, shape_properties fragments, get?_mergedOf own last,
    Option.map_some]

theorem ReadAs.collapses (object : (s.node id).kind = .object found) :
    ∃ qs, layers document (s.node id).pointer = qs.map .fragment ∧
      Postorder (PartsAt document) ∅ [(s.node id).pointer] qs ∧
      s.Collapses (s.node id).pointer qs found := by
  obtain ⟨numbered, ms, present, direct, declared, rfl⟩ := h.fragment_of_object object
  generalize (s.node id).pointer = p at *
  have sound := fun {l} => h.layers_numbered (l := l) numbered present direct declared
  obtain ⟨qs, fragments, listed⟩ := layers_postorder fun e merged => by
    obtain ⟨_, other, _⟩ := sound merged
    cases other
  have reached : ∀ q, q ∈ qs ↔ Relation.ReflTransGen (Inherits document) p q := fun q =>
    listed.mem_iff fun _ _ _ parts => parts.mem_iff
  have merged : ∀ q, .fragment q ∈ layers document p ↔ q ∈ qs := by
    intro q
    rw [fragments, List.mem_map_of_injective fun _ _ same => Layer.fragment.inj same]
  have known : ∀ q ∈ qs, ∀ name ∈ propertyNames (membersAt document q), ownPlace q name ∈ order := by
    intro q member
    obtain ⟨_, same, numbers⟩ := sound ((merged q).mpr member)
    cases same
    exact numbers
  have same := h.same
  refine ⟨qs, fragments, listed, ⟨listed.nodup.1, ?_, ?_, ?_, ?_, ?_, ?_⟩⟩
  · rw [same]
    exact reached
  · intro name
    rw [same, mem_keys_shape fragments]
    exact exists_congr fun q => and_congr_left fun _ => reached q
  · intro name
    rw [same, Shape.map, mem_required_shape]
    exact exists_congr fun q => and_congr ((merged q).trans (reached q)) Iff.rfl
  · rw [same]
    intro name own
    obtain ⟨before, split⟩ := listed.start_last
    have member : p ∈ qs := (reached p).mpr .refl
    rw [split] at fragments
    exact h.property_of_last fragments (known p member name own) own fun _ none =>
      absurd none List.not_mem_nil
  · rw [same]
    intro name member
    obtain ⟨before, q, after, rfl, own, last⟩ :=
      exists_last ((mem_keys_shape fragments).mp member)
    have member := List.mem_append_right before (List.mem_cons_self (a := q) (l := after))
    obtain ⟨id, entry, node⟩ := h.property_of_last fragments (known q member name own) own last
    exact ⟨before, q, after, id, rfl, own, last, entry, node⟩
  · rw [same]
    exact keys_shape fragments

end Nodes

theorem of_shape? {k : Kind Id} (shaped : k.shape? = some found) : k = .object found := by
  cases k with
  | object shape => exact congrArg Kind.object (Option.some.inj shaped)
  | _ => cases shaped

/-- The shape of an object is that of all fragments behind its own. These have one post-order. Their
properties and what they require is united; what the own fragment declares is its own, else the last
fragment that declares a property gives it; and properties stand in the order in which they are first
declared. Where all references are canonical, different fragments are at different locations. -/
theorem all_of_collapses (built : build document options formats = .ok s)
    (object : (s.node id).kind = .object found) :
    (∃ qs, Postorder (PartsAt s.document) ∅ [(s.node id).pointer] qs) ∧
      ∀ qs, Postorder (PartsAt s.document) ∅ [(s.node id).pointer] qs →
        s.Collapses (s.node id).pointer qs found ∧
        (s.document.KeysUnique → (∀ r ∈ referenced s.document, r.Canonical s.document) →
          ∀ q ∈ qs, ∀ r ∈ qs, ∀ path, q.location? s.document = some path →
            r.location? s.document = some path → q = r) := by
  obtain ⟨naming, order, h⟩ := read_as built
  obtain ⟨qs, fragments, listed, collapses⟩ := h.collapses object
  rw [h.same]
  refine ⟨⟨qs, listed⟩, fun rs also => ?_⟩
  have functional : ∀ p qs rs, PartsAt document p qs → PartsAt document p rs → qs = rs :=
    fun _ _ _ here there => here.unique there
  obtain rfl := also.unique functional listed
  refine ⟨collapses, fun unique straight q first r second path here there => ?_⟩
  have merged : ∀ {q}, q ∈ rs → .fragment q ∈ layers document (s.node id).pointer := by
    intro q member
    rw [fragments]
    exact List.mem_map_of_mem member
  exact h.layers_apart unique straight (h.fragment_of_object object).1 (merged first) (merged second)
    here there

/-- A quilt joins two halves over one base, which is cut from quilts again; each half has a property of
the base in its own way. -/
def quilts : Json :=
  .object [("definitions", .object [
    ("Base", .object [("allOf", .array [.object [("$ref", .string "#/definitions/Quilt")]]),
      ("properties", .object [("left", .object []), ("right", .object [])])]),
    ("Left", .object [("allOf", .array [.object [("$ref", .string "#/definitions/Base")],
      .object [("required", .array [.string "left"])]]),
      ("properties", .object [("left", .object [("type", .string "string")])])]),
    ("Cloth", .object [("$ref", .string "#/definitions/Base")]),
    ("Right", .object [("allOf", .array [.object [("$ref", .string "#/definitions/Cloth")]]),
      ("properties", .object [("right", .object [("type", .string "string")])])]),
    ("Quilt", .object [("allOf", .array [.object [("$ref", .string "#/definitions/Left")],
        .object [("$ref", .string "#/definitions/Right")]]),
      ("properties", .object [("edge", .object [])])])])]

theorem all_of_collapses_in_quilts : ∃ s id shape qs, build quilts .standard .standard = .ok s ∧
    s.definition? "Quilt" = some id ∧ (s.node id).kind = .object shape ∧
    Entries.keys shape.properties = ["left", "right", "edge"] ∧
    Entries.get? "left" shape.properties = s.schemaAt? "/definitions/Left/properties/left" ∧
    Entries.get? "right" shape.properties = s.schemaAt? "/definitions/Right/properties/right" ∧
    Postorder (PartsAt s.document) ∅ [(s.node id).pointer] qs ∧
    s.Collapses (s.node id).pointer qs shape ∧
    ∀ q ∈ qs, ∀ r ∈ qs, ∀ path, q.location? s.document = some path →
      r.location? s.document = some path → q = r := by
  have made : (build quilts .standard .standard).toOption.any (fun s =>
      (s.definition? "Quilt").any fun id => (s.node id).kind.shape?.any fun shape => decide
        (Entries.keys shape.properties = ["left", "right", "edge"] ∧
          Entries.get? "left" shape.properties = s.schemaAt? "/definitions/Left/properties/left" ∧
          Entries.get? "right" shape.properties =
            s.schemaAt? "/definitions/Right/properties/right")) = true := by
    decide +kernel
  obtain ⟨s, built, made⟩ := Except.exists_of_any made
  obtain ⟨id, known, made⟩ := (Option.any_eq_true _ _).mp made
  obtain ⟨shape, object, made⟩ := (Option.any_eq_true _ _).mp made
  obtain ⟨names, left, right⟩ := of_decide_eq_true made
  have object := of_shape? object
  have straight : ∀ r ∈ referenced quilts, r.Canonical quilts := by decide +kernel
  have unique : quilts.KeysUnique := by
    simp [quilts, Json.KeysUnique, Json.KeysUniqueItems, Json.KeysUniqueMembers, Entries.keys]
  obtain ⟨_, _, h⟩ := read_as built
  obtain ⟨⟨qs, listed⟩, collapses⟩ := all_of_collapses built object
  obtain ⟨collapsed, apart⟩ := collapses qs listed
  refine ⟨s, id, shape, qs, built, known, object, names, left, right, listed, collapsed, ?_⟩
  rw [h.same] at apart ⊢
  exact apart unique straight

end Spec
end ApiPayload
