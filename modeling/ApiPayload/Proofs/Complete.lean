import ApiPayload.Proofs.Depths
import ApiPayload.Proofs.Models
import ApiPayload.Proofs.Texts

/-
Arenas that are complete. When all roots have been asked for no slot is left reserved, no link leads out
of the arena, and the table and the nodes are inverse to one another; so the numbers that a spec gives
out are numbers of its nodes.
-/
namespace ApiPayload.Spec

open Schema

section Arena
variable {document : Json} {naming : Naming} {order : List Pointer} {limit : Nat} {a : Arena}
  {p q : Pointer}

/-- All is built, and all that is linked to is there. -/
structure Complete (document : Json) (a : Arena) : Prop where
  filled : ∀ id, id < a.slots.length → ∃ n, a.slots[id]? = some (some n)
  links : ∀ n, some n ∈ a.slots → ∀ l ∈ n.kind.links, l < a.slots.length
  inverse : ∀ id p, Entries.get? p a.table = some id ↔ ∃ n, a.slots[id]? = some (some n) ∧ n.pointer = p
  raw : ∀ n, some n ∈ a.slots → n.pointer.find? document = some n.raw

theorem assembled (read : assemble document naming limit .empty = .ok () a) :
    ∃ order, numbering document = .ok order ∧ a.Numbers order ∧
      a.slots = order.map fun p => some (nodeAt document naming order p) := by
  have deep : assemble document naming (placeLimit document) .empty = .ok () a := by
    rcases Nat.le_total limit (placeLimit document) with within | beyond
    · rcases assemble_sooner naming within .empty with same | ⟨e, a', failed, _⟩
      · exact same.symm.trans read
      · rw [read] at failed
        cases failed
    · exact (assemble_deeper beyond).symm.trans read
  have ends := assemble_ends naming (Nat.le_refl (placeLimit document))
  rw [deep] at ends
  obtain ⟨order, numbered, numbers, ⟨new, same, _, slots⟩, _⟩ := ends.eq_ok
  obtain rfl : order = new := same
  exact ⟨order, numbered, numbers, slots⟩

theorem nodeAt_links (provided : Provided document order p) :
    ∀ l ∈ (nodeAt document naming order p).kind.links, l < order.length := by
  intro l linked
  rw [nodeAt, Kind.links_map] at linked
  obtain ⟨q, listed, rfl⟩ := List.mem_map.mp linked
  exact List.idxOf_lt_length_iff.mpr (links_numbered provided q listed)

theorem nodeAt_raw (provided : Provided document order p) :
    p.find? document = some (nodeAt document naming order p).raw := by
  obtain ⟨raw, found, _⟩ := provided
  rw [nodeAt, found]
  rfl

theorem assembled_complete (read : assemble document naming limit .empty = .ok () a) :
    Complete document a := by
  obtain ⟨order, numbered, numbers, slots⟩ := assembled read
  obtain ⟨_, distinct⟩ := numbering_adds numbered
  have slot : ∀ (id : Id) (n : Node), a.slots[id]? = some (some n) ↔
      ∃ p : Pointer, order[id]? = some p ∧ nodeAt document naming order p = n := by
    intro id n
    simp only [slots, List.getElem?_map, Option.map_eq_some_iff, Option.some.injEq]
  have listed : ∀ n, some n ∈ a.slots → ∃ p ∈ order, nodeAt document naming order p = n := by
    intro n member
    obtain ⟨p, known, same⟩ := List.mem_map.mp (slots ▸ member)
    exact ⟨p, known, Option.some.inj same⟩
  refine ⟨fun id inside => ?_, fun n member => ?_, fun id p => ?_, fun n member => ?_⟩
  · rw [numbers.length] at inside
    exact ⟨_, (slot id _).mpr ⟨_, List.getElem?_eq_getElem inside, rfl⟩⟩
  · obtain ⟨p, known, rfl⟩ := listed n member
    rw [numbers.length]
    exact nodeAt_links (provided_of_numbered numbered known)
  · rw [numbers.table]
    constructor
    · intro found
      split at found
      · rename_i known
        cases found
        exact ⟨_, (slot _ _).mpr ⟨p, List.getElem?_idxOf known, rfl⟩, rfl⟩
      · cases found
    · rintro ⟨n, found, rfl⟩
      obtain ⟨p, present, rfl⟩ := (slot id n).mp found
      obtain ⟨inside, rfl⟩ := List.getElem?_eq_some_iff.mp present
      exact (if_pos (List.getElem_mem inside)).trans (congrArg some (distinct.idxOf_getElem id inside))
  · obtain ⟨p, known, rfl⟩ := listed n member
    exact nodeAt_raw (provided_of_numbered numbered known)

end Arena

section Spec
variable {document : Json} {naming : Naming} {order : List Pointer} {s : Spec} {id : Id} {p : Pointer}

/-- The numbers that a spec gives out are numbers of its nodes. -/
structure Linked (s : Spec) : Prop where
  links : ∀ id < s.nodes.size, ∀ l ∈ (s.node id).kind.links, l < s.nodes.size
  models : ∀ m ∈ s.models, m.schema < s.nodes.size ∧ ∀ e ∈ m.shape.properties, e.2 < s.nodes.size
  concrete : ∀ id < s.nodes.size, s.concrete id < s.nodes.size
  resolve : ∀ reference id, s.resolve reference = .ok id → id < s.nodes.size
  schemaAt : ∀ id < s.nodes.size, s.schemaAt? (s.node id).pointer.text = some id
  pointer : ∀ text id, s.schemaAt? text = some id →
    Pointer.ofChars? (Pointer.hashless text) = some (s.node id).pointer
  raw : ∀ id < s.nodes.size,
    (Pointer.ofFragment (s.node id).pointer.text).find? s.document = some (s.node id).raw

theorem ReadAs.node_eq (h : s.ReadAs document naming order) (inside : id < order.length) :
    s.node id = nodeAt document naming order order[id] := by
  rw [node, h.nodes, List.getElem?_toArray, List.getElem?_map, List.getElem?_eq_getElem inside]
  rfl

theorem ReadAs.size_eq (h : s.ReadAs document naming order) : s.nodes.size = order.length := by
  rw [h.nodes, List.size_toArray, List.length_map]

theorem node_getElem (inside : id < s.nodes.size) : s.nodes[id] = s.node id := by
  rw [node, Array.getElem?_eq_getElem inside]
  rfl

theorem nodeOf?_some (found : s.nodeOf? p = some id) : id < s.nodes.size ∧ (s.node id).pointer = p := by
  obtain ⟨inside, same, _⟩ := Array.findIdx?_eq_some_iff_getElem.mp found
  exact ⟨inside, node_getElem inside ▸ of_decide_eq_true same⟩

theorem ReadAs.pointer_eq (h : s.ReadAs document naming order) (inside : id < order.length) :
    (s.node id).pointer = order[id] := by
  rw [h.node_eq inside]
  rfl

/-- All that a node says is read from what the node was read from. -/
theorem ReadAs.node_raw (h : s.ReadAs document naming order) (inside : id < s.nodes.size) :
    (s.node id).kind = (kind document naming (s.node id).pointer (s.node id).raw).map order.idxOf ∧
      (s.node id).default = (s.node id).raw.member? "default" ∧
      (s.node id).nullable = nullable (s.node id).raw := by
  rw [h.size_eq] at inside
  rw [h.node_eq inside]
  exact ⟨rfl, rfl, rfl⟩

theorem ReadAs.nodeOf?_getElem (h : s.ReadAs document naming order) (inside : id < order.length) :
    s.nodeOf? order[id] = some id := by
  obtain ⟨_, distinct⟩ := numbering_adds h.numbered
  have within : id < s.nodes.size := h.size_eq ▸ inside
  refine Array.findIdx?_eq_some_iff_getElem.mpr ⟨within, ?_, fun j earlier same => ?_⟩
  · rw [node_getElem, h.pointer_eq inside]
    exact decide_eq_true rfl
  · have between : j < order.length := Nat.lt_trans earlier inside
    rw [node_getElem, h.pointer_eq between, decide_eq_true_eq] at same
    have places := congrArg order.idxOf same
    rw [distinct.idxOf_getElem, distinct.idxOf_getElem] at places
    exact absurd places (Nat.ne_of_lt earlier)

theorem ReadAs.standing (h : s.ReadAs document naming order) (numbered : p ∈ order) :
    Standing document p := by
  obtain ⟨r, root, needed⟩ := (mem_numbering h.numbered).mp numbered
  exact passed_of_needed (standing_passed document) (standing_start (List.mem_append_left _ root)) needed

theorem ReadAs.plain (h : s.ReadAs document naming order) (inside : id < order.length) :
    order[id].Plain := spots_plain (h.standing (List.getElem_mem inside)).spot

theorem concrete?_lt {nodes : Array Node} {k : Id} {fuel : Nat}
    (links : ∀ id < nodes.size, ∀ l ∈ (nodes[id]?.getD .blank).kind.links, l < nodes.size)
    (inside : id < nodes.size) (found : concrete? nodes fuel id = some k) : k < nodes.size := by
  induction fuel generalizing id with
  | zero => cases found
  | succ fuel ih =>
    rw [concrete?] at found
    split at found
    · rename_i target points
      refine ih (links id inside target ?_) found
      rw [points]
      exact List.mem_singleton_self target
    · cases found
      exact inside

theorem of_known {reference : String} {o : Option Id} (found : (match o with
    | some id => (.ok id : Except SpecError Id)
    | none => .error (.unknownSchema reference)) = .ok id) : o = some id := by
  cases o with
  | none => cases found
  | some other =>
    cases found
    rfl

theorem resolve_ok {reference : String} (found : s.resolve reference = .ok id) :
    s.schemaAt? reference = some id ∨ s.definition? reference = some id := by
  unfold resolve at found
  split at found
  · exact .inl (of_known found)
  · exact .inl (of_known found)
  · exact .inr (of_known found)

theorem ReadAs.linked (h : s.ReadAs document naming order) : s.Linked := by
  have provided : ∀ id (inside : id < order.length), Provided document order order[id] :=
    fun id inside => provided_of_numbered h.numbered (List.getElem_mem inside)
  have links : ∀ id < s.nodes.size, ∀ l ∈ (s.node id).kind.links, l < s.nodes.size := by
    intro id inside
    rw [h.size_eq] at inside ⊢
    rw [h.node_eq inside]
    exact nodeAt_links (provided id inside)
  have models : ∀ m ∈ s.models, m.schema < s.nodes.size := by
    intro m member
    obtain ⟨p, ms, origin⟩ := h.origin member
    rw [h.size_eq, origin.schema]
    exact List.idxOf_lt_length_iff.mpr origin.numbered
  have known : ∀ p id, s.nodeOf? p = some id → id < s.nodes.size := fun p id found => (nodeOf?_some found).1
  have resolved : ∀ reference id, s.resolve reference = .ok id → id < s.nodes.size := by
    intro reference id found
    rcases resolve_ok found with given | given
    · obtain ⟨p, _, found⟩ := Option.bind_eq_some_iff.mp given
      exact known p id found
    · rcases Option.or_eq_some_iff.mp given with given | ⟨_, given⟩
      · obtain ⟨c, _, found⟩ := List.exists_of_findSome?_eq_some given
        exact known _ id found
      · obtain ⟨m, named, rfl⟩ := Option.map_eq_some_iff.mp given
        exact models m (of_model? named).1
  refine ⟨links, fun m member => ⟨models m member, fun e listed => ?_⟩, fun id inside => ?_,
    fun reference id found => ?_, fun id inside => ?_, fun text id found => ?_, fun id inside => ?_⟩
  · refine links m.schema (models m member) e.2 ?_
    rw [h.formed.modelNode m member]
    exact List.mem_map_of_mem listed
  · exact concrete?_lt links inside (h.formed.concrete_spec id)
  · exact resolved reference id found
  · rw [h.size_eq] at inside
    rw [schemaAt?, Pointer.hashless_text, h.pointer_eq inside, Pointer.ofChars?_text (h.plain inside)]
    exact h.nodeOf?_getElem inside
  · obtain ⟨p, read, found⟩ := Option.bind_eq_some_iff.mp found
    rw [read, (nodeOf?_some found).2]
  · rw [h.size_eq] at inside
    rw [h.pointer_eq inside, h.node_eq inside, h.same, Pointer.find?_ofFragment (h.plain inside)]
    exact nodeAt_raw (provided id inside)

/-- Where the definitions have names and all roots have been asked for, the arena is complete, and a spec
of the document has the nodes of the arena and gives out no other numbers. -/
theorem assembly_complete {limit : Nat} {a : Arena}
    (named : (definitions document).foldlM bindName [] = .ok naming)
    (read : assemble document naming limit .empty = .ok () a) :
    Complete document a ∧ ∀ options formats s, build document options formats = .ok s →
      s.document = document ∧ s.nodes.toList.map some = a.slots ∧ s.Linked := by
  refine ⟨assembled_complete read, fun options formats s built => ?_⟩
  obtain ⟨naming', order', h⟩ := read_as built
  obtain ⟨order, numbered, _, slots⟩ := assembled read
  obtain rfl := Except.ok.inj (named.symm.trans h.named)
  obtain rfl := Except.ok.inj (numbered.symm.trans h.numbered)
  refine ⟨h.same, ?_, h.linked⟩
  rw [h.nodes, slots, List.map_map]
  rfl

/-- Persons know one another, and a child is merged with what a person is. -/
def kin : Json := .object [
  ("definitions", .object [
    ("Child", .object [
      ("allOf", .array [.object [("$ref", .string "#/definitions/Person")],
        .object [("properties", .object [("mother", .object [("$ref", .string "#/definitions/Person")])])]])]),
    ("Person", .object [
      ("properties", .object [
        ("children", .object [("type", .string "array"),
          ("items", .object [("$ref", .string "#/definitions/Child")])]),
        ("self", .object [("$ref", .string "#/definitions/Person")])])])])]

theorem assembly_complete_for_kin : ∃ naming a s,
    (definitions kin).foldlM bindName [] = .ok naming ∧
    assemble kin naming (placeLimit kin) .empty = .ok () a ∧
    build kin .standard .standard = .ok s ∧ a.slots.length = 6 ∧ Complete kin a ∧ s.Linked := by
  have read : ((definitions kin).foldlM bindName []).toOption.any (fun naming =>
      match assemble kin naming (placeLimit kin) .empty with
      | .ok _ a => a.slots.length = 6
      | .error _ _ => false) = true := by
    decide +kernel
  have made : (build kin .standard .standard).toOption.any (fun _ => true) = true := by decide +kernel
  obtain ⟨naming, named, read⟩ := Except.exists_of_any read
  obtain ⟨s, built, _⟩ := Except.exists_of_any made
  cases ran : assemble kin naming (placeLimit kin) .empty with
  | error e a =>
    rw [ran] at read
    cases read
  | ok v a =>
    rw [ran] at read
    obtain ⟨complete, specs⟩ := assembly_complete named ran
    exact ⟨naming, a, s, named, ran, built, of_decide_eq_true read, complete, (specs _ _ s built).2.2⟩

end Spec
end ApiPayload.Spec
