import ApiPayload.Proofs.Complete

/-
Locations and how they are written. A location has one canonical pointer, and every pointer that reading
comes to is canonical unless it starts as a reference that is written otherwise; so where all references
are canonical a location has one node.
-/
namespace ApiPayload

namespace Pointer

/-- A step on the way to a location: the key of a member or the index of an item. -/
inductive Branch where
  | member (key : String)
  | item (i : Nat)
  deriving DecidableEq

def branch? (token : String) : Json → Option (Branch × Json)
  | .array xs => (indexOf? (unescape token)).bind fun i => xs[i]?.map fun x => (.item i, x)
  | .object ms => (Entries.get? (unescape token) ms).map fun x => (.member (unescape token), x)
  | _ => none

def route? : List String → Json → Option (List Branch)
  | [], _ => some []
  | t :: ts, v => (branch? t v).bind fun b => (route? ts b.2).map (b.1 :: ·)

/-- The location that a pointer leads to. -/
def location? (p : Pointer) (document : Json) : Option (List Branch) :=
  route? (p.tokens.dropWhile (· = "")) document

def Branch.token : Branch → String
  | member key => escape key
  | item i => toString i

def spelled (path : List Branch) : Pointer := ⟨path.map Branch.token⟩

/-- A pointer is canonical if it is written as its location is spelled. -/
def Canonical (document : Json) (p : Pointer) : Prop :=
  ∀ path, p.location? document = some path → p = spelled path

instance (document : Json) (p : Pointer) : Decidable (p.Canonical document) :=
  match located : p.location? document with
  | none => .isTrue fun path here => nomatch located.symm.trans here
  | some path => decidable_of_iff (p = spelled path) (by simp [Canonical, located])

variable {document v : Json} {p q : Pointer} {ts : List String} {t key : String} {ms : List (String × Json)}

theorem branch?_step (t : String) (v : Json) : (branch? t v).map Prod.snd = step t v := by
  cases v with
  | array xs =>
    rw [branch?, step]
    cases indexOf? (unescape t) with
    | none => rfl
    | some i => simp [Function.comp_def]
  | object ms => simp [branch?, step, Function.comp_def]
  | _ => rfl

theorem route?_of_walk (found : walk ts document = some v) : ∃ path, route? ts document = some path := by
  induction ts generalizing document with
  | nil => exact ⟨[], rfl⟩
  | cons t rest ih =>
    obtain ⟨x, first, later⟩ := Option.bind_eq_some_iff.mp found
    rw [← branch?_step] at first
    obtain ⟨b, branch, rfl⟩ := Option.map_eq_some_iff.mp first
    obtain ⟨path, below⟩ := ih later
    exact ⟨b.1 :: path, by rw [route?, branch, Option.bind_some, below]; rfl⟩

theorem location?_of_find? (found : p.find? document = some v) :
    ∃ path, p.location? document = some path := route?_of_walk found

theorem route?_append (found : walk ts document = some v) : route? (ts ++ [t]) document =
    (route? ts document).bind fun path => (branch? t v).map fun b => path ++ [b.1] := by
  induction ts generalizing document with
  | nil =>
    cases found
    show (branch? t v).bind _ = (branch? t v).map _
    cases branch? t v <;> rfl
  | cons u rest ih =>
    obtain ⟨x, first, later⟩ := Option.bind_eq_some_iff.mp found
    rw [← branch?_step] at first
    obtain ⟨b, branch, rfl⟩ := Option.map_eq_some_iff.mp first
    rw [List.cons_append, route?, route?, branch, Option.bind_some, Option.bind_some, ih later]
    cases route? rest b.2 with
    | none => rfl
    | some path => cases branch? t v <;> rfl

/-- A canonical pointer that is followed by the token of a branch is canonical. -/
theorem Canonical.append {b : Branch} {x : Json} (h : p.Canonical document)
    (found : p.find? document = some v) (branch : branch? b.token v = some (b, x))
    (leads : b.token ≠ "" ∨ ∃ u ∈ p.tokens, u ≠ "") :
    (⟨p.tokens ++ [b.token]⟩ : Pointer).Canonical document := by
  intro path located
  rw [location?, dropWhile_append leads, route?_append found] at located
  obtain ⟨above, here, located⟩ := Option.bind_eq_some_iff.mp located
  rw [branch] at located
  cases located
  obtain rfl := h above here
  rw [spelled, spelled, List.map_append]
  rfl

theorem Canonical.child (h : p.Canonical document) (found : p.find? document = some (.object ms))
    (listed : Entries.get? key ms = some v) (leads : key ≠ "" ∨ ∃ u ∈ p.tokens, u ≠ "") :
    (p.child key).Canonical document := by
  have branch : branch? (Branch.member key).token (.object ms) = some (.member key, v) := by
    rw [branch?, Branch.token, unescape_escape, listed]
    rfl
  exact h.append found branch (leads.imp_left escape_ne_empty)

theorem Canonical.item {xs : List Json} {i : Nat} (h : p.Canonical document)
    (found : p.find? document = some (.array xs)) (listed : xs[i]? = some v) :
    (p.item i).Canonical document := by
  have branch : branch? (Branch.item i).token (.array xs) = some (.item i, v) := by
    rw [branch?, Branch.token, indexOf?_toString, Option.bind_some, listed]
    rfl
  exact h.append found branch (.inl (toString_ne_empty i))

theorem root_canonical (document : Json) : root.Canonical document := by
  intro path located
  cases located
  rfl

/-- Canonical pointers that lead to one location are the same. -/
theorem Canonical.unique {path : List Branch} (h : p.Canonical document) (other : q.Canonical document)
    (here : p.location? document = some path) (there : q.location? document = some path) : p = q :=
  (h path here).trans (other path there).symm

end Pointer

namespace Spec

open Schema

section Starts
variable {document v : Json} {p q : Pointer} {P : Pointer → Prop}

mutual
theorem schemaPlaces_passed (h : Descends document P) {p : Pointer} (here : P p)
    (leads : ∃ u ∈ p.tokens, u ≠ "") : ∀ v : Json, v.KeysUnique → p.find? document = some v →
      ∀ q ∈ schemaPlaces p v, P q
  | .null, _, _, _, member | .bool _, _, _, _, member | .number _, _, _, _, member
  | .string _, _, _, _, member => nomatch member
  | .array xs, unique, found, q, member => by
    refine schemaPlacesItems_passed h here found 0 xs unique (fun i x present => ?_) q member
    rw [Nat.zero_add]
    exact present
  | .object ms, unique, found, q, member =>
    schemaPlacesMembers_passed h here leads found ms unique.2
      (fun key x present => Entries.get?_of_mem unique.1 present) q member

theorem schemaPlacesItems_passed (h : Descends document P) {p : Pointer} (here : P p) {xs : List Json}
    (found : p.find? document = some (.array xs)) (n : Nat) :
    ∀ ys : List Json, Json.KeysUniqueItems ys → (∀ (i : Nat) x, ys[i]? = some x → xs[n + i]? = some x) →
      ∀ q ∈ schemaPlacesItems p n ys, P q
  | [], _, _, _, member => nomatch member
  | y :: ys, unique, listed, q, member => by
    have first := listed 0 y rfl
    rw [Nat.add_zero] at first
    rcases List.mem_append.mp member with member | member
    · exact schemaPlaces_passed h (h.item here found first)
        ⟨_, List.mem_append_right _ (List.mem_singleton_self _), Pointer.toString_ne_empty n⟩ y unique.1
        ((Pointer.find?_item found n).trans first) q member
    · refine schemaPlacesItems_passed h here found (n + 1) ys unique.2 (fun i x present => ?_) q member
      rw [Nat.add_right_comm, Nat.add_assoc]
      exact listed (i + 1) x present

theorem schemaPlacesMembers_passed (h : Descends document P) {p : Pointer} (here : P p)
    (leads : ∃ u ∈ p.tokens, u ≠ "") {ms : Members} (found : p.find? document = some (.object ms)) :
    ∀ es : Members, Json.KeysUniqueMembers es → (∀ key x, (key, x) ∈ es → Entries.get? key ms = some x) →
      ∀ q ∈ schemaPlacesMembers p es, P q
  | [], _, _, _, member => nomatch member
  | (key, x) :: es, unique, listed, q, member => by
    have first := listed key x List.mem_cons_self
    have below : P (p.child key) := h.child here found first (.inr leads)
    rcases List.mem_append.mp member with member | member
    · split at member
      · rw [List.mem_singleton.mp member]
        exact below
      · obtain ⟨u, known, token⟩ := leads
        exact schemaPlaces_passed h below ⟨u, List.mem_append_left _ known, token⟩ x unique.1
          ((Pointer.find?_child found (.inr ⟨u, known, token⟩)).trans first) q member
    · exact schemaPlacesMembers_passed h here leads found es unique.2
        (fun other y present => listed other y (List.mem_cons_of_mem _ present)) q member
end

theorem member_passed (h : Descends document P) (top : P .root) {key : String} (named : key ≠ "")
    (found : document.member? key = some v) :
    P (Pointer.root.child key) ∧ (Pointer.root.child key).find? document = some v := by
  cases document with
  | object ms =>
    have whole : Pointer.root.find? (.object ms) = some (.object ms) := rfl
    exact ⟨h.child top whole found (.inl named), (Pointer.find?_child whole (.inl named)).trans found⟩
  | _ => cases found

theorem container_passed (h : Descends document P) (top : P .root) {c : Pointer} {ms : Members}
    (container : c ∈ containers) (found : c.find? document = some (.object ms)) : P c := by
  rcases List.mem_cons.mp container with rfl | container
  · rw [find?_key (by decide) (by decide) (by decide)] at found
    exact (member_passed h top (by decide) found).1
  · obtain rfl := List.mem_singleton.mp container
    rw [find?_schemas] at found
    obtain ⟨v, above, found⟩ := Option.bind_eq_some_iff.mp found
    obtain ⟨here, there⟩ := member_passed h top (by decide) above
    cases v with
    | object es => exact h.child here there found (.inl (by decide))
    | _ => cases found

theorem roots_passed (h : Descends document P) (unique : document.KeysUnique) (top : P .root) :
    ∀ r ∈ roots document, P r := by
  intro r root
  rcases List.mem_append.mp root with defined | listed
  · obtain ⟨⟨p, key, v⟩, member, rfl⟩ := List.mem_map.mp defined
    obtain ⟨c, container, ms, found, listed, rfl⟩ := mem_definitions.mp member
    have present := Entries.get?_of_mem (unique.find? found).1 listed
    refine h.child (container_passed h top container found) found present ?_
    rcases List.mem_cons.mp container with rfl | container
    · exact .inr ⟨_, List.mem_cons_self, by decide⟩
    · rw [List.mem_singleton.mp container]
      exact .inr ⟨_, List.mem_cons_self, by decide⟩
  · cases found : document.member? "paths" with
    | none =>
      rw [found] at listed
      cases listed
    | some paths =>
      rw [found] at listed
      obtain ⟨here, there⟩ := member_passed h top (by decide) found
      exact schemaPlaces_passed h here ⟨_, List.mem_singleton_self _, by decide⟩ paths
        (unique.find? there) there r listed

theorem canonical_descends (document : Json) : Descends document (Pointer.Canonical document) where
  child here found listed leads := here.child found listed leads
  item here found listed := here.item found listed

/-- A pointer goes astray if it starts as a reference that is not written canonically. -/
def Astray (document : Json) (p : Pointer) : Prop :=
  ∃ q ∈ referenced document, ¬ q.Canonical document ∧ q.tokens <+: p.tokens

theorem canonical_passed (document : Json) :
    Passed document fun p => p.Canonical document ∨ Astray document p where
  child here found listed leads := by
    rcases here with canonical | ⟨q, named, other, start⟩
    · exact .inl (canonical.child found listed leads)
    · exact .inr ⟨q, named, other, start.trans (List.prefix_append _ _)⟩
  item here found listed := by
    rcases here with canonical | ⟨q, named, other, start⟩
    · exact .inl (canonical.item found listed)
    · exact .inr ⟨q, named, other, start.trans (List.prefix_append _ _)⟩
  named q named := by
    by_cases canonical : q.Canonical document
    · exact .inl canonical
    · exact .inr ⟨q, named, canonical, List.prefix_rfl⟩

end Starts

section Nodes
variable {document : Json} {options : Options} {formats : Format.Registry} {s : Spec}
  {naming : Naming} {order : List Pointer} {p q : Pointer} {i j : Id} {path : List Pointer.Branch}

theorem ReadAs.canonical (h : s.ReadAs document naming order) (unique : document.KeysUnique)
    (inside : i < s.nodes.size) :
    (s.node i).pointer.Canonical document ∨ Astray document (s.node i).pointer := by
  rw [h.size_eq] at inside
  rw [h.pointer_eq inside]
  obtain ⟨r, root, needed⟩ := (mem_numbering h.numbered).mp (List.getElem_mem inside)
  have rooted := roots_passed (canonical_descends document) unique (Pointer.root_canonical document) r root
  exact passed_of_needed (canonical_passed document) (.inl rooted) needed

theorem ReadAs.eq_of_canonical (h : s.ReadAs document naming order)
    (inside : i < s.nodes.size) (within : j < s.nodes.size)
    (canonical : (s.node i).pointer.Canonical document)
    (canonical' : (s.node j).pointer.Canonical document)
    (here : (s.node i).pointer.location? document = some path)
    (there : (s.node j).pointer.location? document = some path) : i = j := by
  have same := canonical.unique canonical' here there
  rw [h.size_eq] at inside within
  rw [h.pointer_eq inside, h.pointer_eq within] at same
  have found := h.nodeOf?_getElem inside
  rw [same, h.nodeOf?_getElem within] at found
  exact (Option.some.inj found).symm

theorem ReadAs.model_canonical (h : s.ReadAs document naming order) (unique : document.KeysUnique)
    {m : Model} (member : m ∈ s.models) :
    m.schema < s.nodes.size ∧ (s.node m.schema).pointer.Canonical document := by
  obtain ⟨p, ms, origin⟩ := h.origin member
  obtain ⟨key, v, defined, _⟩ := (naming_ok h.named).defined p m.name origin.named
  have root : p ∈ roots document := List.mem_append_left _ (List.mem_map_of_mem defined)
  have inside : order.idxOf p < order.length := List.idxOf_lt_length_iff.mpr origin.numbered
  rw [h.size_eq, origin.schema, h.pointer_eq inside, List.getElem_idxOf]
  exact ⟨inside, roots_passed (canonical_descends document) unique (Pointer.root_canonical document) p root⟩

/-- Two nodes of one location are the same node, and a reference to the location of a definition leads to
the node that is bound to its model, unless a reference that is not written canonically leads there. -/
theorem one_node_per_place (built : build document options formats = .ok s)
    (unique : document.KeysUnique) :
    (∀ i < s.nodes.size, ∃ path, (s.node i).pointer.location? document = some path) ∧
    (∀ i j path, i < s.nodes.size → j < s.nodes.size →
      (s.node i).pointer.location? document = some path →
      (s.node j).pointer.location? document = some path →
      i = j ∨ Astray document (s.node i).pointer ∨ Astray document (s.node j).pointer) ∧
    ∀ m ∈ s.models, ∀ i target path, i < s.nodes.size → (s.node i).kind = .ref target →
      (s.node target).pointer.location? document = some path →
      (s.node m.schema).pointer.location? document = some path →
      Astray document (s.node target).pointer ∨
        target = m.schema ∧ (s.node target).kind = .object m.shape ∧ m.shape.model = some m.name := by
  obtain ⟨naming, order, h⟩ := read_as built
  refine ⟨fun i inside => ?_, fun i j path inside within here there => ?_,
    fun m member i target path inside points here there => ?_⟩
  · rw [h.size_eq] at inside
    rw [h.pointer_eq inside]
    obtain ⟨_, found, _⟩ := provided_of_numbered h.numbered (List.getElem_mem inside)
    exact Pointer.location?_of_find? found
  · rcases h.canonical unique inside with canonical | astray
    · rcases h.canonical unique within with canonical' | astray
      · exact .inl (h.eq_of_canonical inside within canonical canonical' here there)
      · exact .inr (.inr astray)
    · exact .inr (.inl astray)
  · have linked : target < s.nodes.size := by
      refine h.linked.links i inside target ?_
      rw [points]
      exact List.mem_singleton_self target
    rcases h.canonical unique linked with canonical | astray
    · obtain ⟨within, canonical'⟩ := h.model_canonical unique member
      obtain rfl := h.eq_of_canonical linked within canonical canonical' here there
      exact .inr ⟨rfl, h.formed.modelNode m member, h.bound unique member⟩
    · exact .inl astray

theorem kin_unique : kin.KeysUnique := by
  simp [kin, Json.KeysUnique, Json.KeysUniqueItems, Json.KeysUniqueMembers, Entries.keys]

theorem one_node_per_place_in_kin : ∃ s, build kin .standard .standard = .ok s ∧ kin.KeysUnique ∧
    s.nodes.size = 6 ∧ ∀ i j path, i < s.nodes.size → j < s.nodes.size →
      (s.node i).pointer.location? kin = some path → (s.node j).pointer.location? kin = some path →
      i = j := by
  have made : (build kin .standard .standard).toOption.any (fun s => decide (s.nodes.size = 6)) = true := by
    decide +kernel
  have written : ∀ q ∈ referenced kin, q.Canonical kin := by decide +kernel
  obtain ⟨s, built, size⟩ := Except.exists_of_any made
  obtain ⟨_, alone, _⟩ := one_node_per_place built kin_unique
  have straight : ∀ p, ¬ Astray kin p := by
    rintro p ⟨q, named, other, _⟩
    exact other (written q named)
  refine ⟨s, built, kin_unique, of_decide_eq_true size, fun i j path inside within here there => ?_⟩
  rcases alone i j path inside within here there with same | astray | astray
  · exact same
  · exact absurd astray (straight _)
  · exact absurd astray (straight _)

/-- An owner whose pet is referred to with one slash too many. -/
def yard : Json := .object [
  ("definitions", .object [
    ("Pet", .object [("type", .string "object"),
      ("properties", .object [("name", .object [("type", .string "string")])])]),
    ("Owner", .object [("type", .string "object"),
      ("properties", .object [("pet", .object [("$ref", .string "#//definitions/Pet")])])])])]

/-- The reference leads to the location of a model, but to a second node that no model is bound to. -/
theorem second_node_in_yard : ∃ s, build yard .standard .standard = .ok s ∧
    ∃ i j k path, i < s.nodes.size ∧ j < s.nodes.size ∧ i ≠ j ∧
      (s.node i).pointer.location? yard = some path ∧ (s.node j).pointer.location? yard = some path ∧
      (s.node k).kind = .ref j ∧ (∃ m ∈ s.models, m.name = "Pet" ∧ m.schema = i) ∧
      ∀ shape, (s.node j).kind = .object shape → shape.model = none := by
  have found : (build yard .standard .standard).toOption.any (fun s => decide
      (0 < s.nodes.size ∧ 4 < s.nodes.size ∧
      (s.node 0).pointer.location? yard = some [.member "definitions", .member "Pet"] ∧
      (s.node 4).pointer.location? yard = some [.member "definitions", .member "Pet"] ∧
      (s.node 3).kind = .ref 4 ∧ (∃ m ∈ s.models, m.name = "Pet" ∧ m.schema = 0) ∧
      (s.node 4).kind.shape?.bind Shape.model = none)) = true := by
    decide +kernel
  obtain ⟨s, built, found⟩ := Except.exists_of_any found
  obtain ⟨first, second, here, there, points, bound, free⟩ := of_decide_eq_true found
  refine ⟨s, built, 0, 4, 3, _, first, second, by decide, here, there, points, bound, ?_⟩
  intro shape object
  rw [object] at free
  exact free

end Nodes
end Spec
end ApiPayload
