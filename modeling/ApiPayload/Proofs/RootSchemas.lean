import ApiPayload.Proofs.DefinitionOrder
import ApiPayload.Proofs.Paths

/-
Root schemas. Every entry of a container of definitions has a node, and so has every outermost `schema`
object under `paths`; and names lead to the nodes of definitions.
-/
namespace ApiPayload.Spec

open Schema
open Pointer (Branch valueAt? spelled)

variable {document v x : Json} {path rest : List Branch} {b : Branch} {ms : Members} {key : String}
  {p q : Pointer}

/-- A path leads to an object under a key `schema`, and not by way of another such object. -/
structure Outermost (v : Json) (path : List Branch) (ms : Members) : Prop where
  keyed : path.getLast? = some (.member "schema")
  stands : valueAt? path v = some (.object ms)
  outer : ∀ above below, path = above ++ below → below ≠ [] →
    above.getLast? = some (.member "schema") → ∀ es, valueAt? above v ≠ some (.object es)

/-- The schemas of a document that are there for themselves, with the paths that lead to them. -/
inductive RootSchema (document : Json) : List Branch → Json → Prop where
  | entry (above : List Branch) {key : String} {v : Json}
      (container : above ∈ [[.member "definitions"], [.member "components", .member "schemas"]])
      (stands : valueAt? (above ++ [.member key]) document = some v) :
      RootSchema document (above ++ [.member key]) v
  | nested {paths : Json} {path : List Branch} {ms : Members}
      (listed : document.member? "paths" = some paths) (outermost : Outermost paths path ms) :
      RootSchema document (.member "paths" :: path) (.object ms)

section Outermost

/-- What has no such key above it is outermost. -/
theorem outermost_of_first (above : List Branch) (fresh : .member "schema" ∉ above)
    (stands : valueAt? (above ++ [.member "schema"]) v = some (.object ms)) :
    Outermost v (above ++ [.member "schema"]) ms := by
  refine ⟨List.getLast?_concat .., stands, fun before below split some keyed => ?_⟩
  have start : before <+: above ++ [.member "schema"] := ⟨below, split.symm⟩
  rcases List.prefix_concat_iff.mp start with rfl | start
  · exact absurd (List.self_eq_append_right.mp split) some
  · exact absurd (start.mem (List.mem_of_getLast? keyed)) fresh

theorem Outermost.tail (h : Outermost v (b :: rest) ms) (enters : b.enter? v = some x) (more : rest ≠ []) :
    Outermost x rest ms := by
  have last : ∀ {path : List Branch}, path ≠ [] → (b :: path).getLast? = path.getLast? := by
    intro path some
    obtain ⟨c, others, rfl⟩ := List.exists_cons_of_ne_nil some
    exact List.getLast?_cons_cons
  have value : ∀ path, valueAt? (b :: path) v = valueAt? path x := by
    intro path
    rw [valueAt?, enters]
    rfl
  refine ⟨(last more).symm.trans h.keyed, (value rest).symm.trans h.stands, ?_⟩
  rintro above below rfl some keyed es
  have named : above ≠ [] := by
    rintro rfl
    cases keyed
  rw [← value]
  exact h.outer (b :: above) below rfl some ((last named).trans keyed) es

theorem schemaPlaces_item {xs : List Json} {i : Nat} (present : xs[i]? = some x) :
    schemaPlaces (p.item i) x ⊆ schemaPlaces p (.array xs) := by
  have from_index : ∀ n, schemaPlaces (p.item (n + i)) x ⊆ schemaPlacesItems p n xs := by
    induction xs generalizing i with
    | nil => cases present
    | cons y others ih =>
      intro n
      rw [schemaPlacesItems]
      cases i with
      | zero =>
        cases present
        exact List.subset_append_left _ _
      | succ i =>
        have later := ih present (n + 1)
        rw [show n + 1 + i = n + (i + 1) by omega] at later
        exact List.Subset.trans later (List.subset_append_right _ _)
  have here := from_index 0
  rwa [Nat.zero_add] at here

theorem schemaPlaces_member {es : Members} (present : Entries.get? key es = some x) :
    (if key = "schema" ∧ x.object?.isSome then [p.child key] else schemaPlaces (p.child key) x) ⊆
      schemaPlaces p (.object es) := by
  have member := Entries.mem_of_get? present
  rw [schemaPlaces]
  clear present
  induction es with
  | nil => cases member
  | cons e others ih =>
    obtain ⟨other, y⟩ := e
    rw [schemaPlacesMembers]
    rcases List.mem_cons.mp member with same | member
    · cases same
      exact List.subset_append_left _ _
    · exact List.Subset.trans (ih member) (List.subset_append_right _ _)

theorem tokens_below (p : Pointer) (token : String) (path : List Branch) :
    (⟨(p.tokens ++ [token]) ++ (spelled path).tokens⟩ : Pointer) =
      ⟨p.tokens ++ token :: (spelled path).tokens⟩ := by
  rw [List.append_assoc]
  rfl

/-- The collector comes to all outermost schemas. -/
theorem Outermost.collected (h : Outermost v path ms) (p : Pointer) :
    (⟨p.tokens ++ (spelled path).tokens⟩ : Pointer) ∈ schemaPlaces p v := by
  induction path generalizing v p with
  | nil => cases h.keyed
  | cons b rest ih =>
    obtain ⟨x, enters, stands⟩ := Option.bind_eq_some_iff.mp h.stands
    cases b with
    | item i =>
      cases v with
      | array xs =>
        have more : rest ≠ [] := by
          rintro rfl
          cases h.keyed
        have below := schemaPlaces_item (p := p) enters (ih (h.tail enters more) (p.item i))
        rwa [Pointer.item, tokens_below] at below
      | _ => cases enters
    | member key =>
      cases v with
      | object es =>
        have below := schemaPlaces_member (p := p) enters
        by_cases schema : key = "schema" ∧ x.object?.isSome
        · rw [if_pos schema] at below
          obtain ⟨rfl, object⟩ := schema
          obtain ⟨own, written⟩ := Option.isSome_iff_exists.mp object
          rw [Json.object?_eq_some] at written
          subst written
          -- the first schema on the way is the last
          have none : rest = [] := by
            by_contra more
            have value : valueAt? [.member "schema"] (.object es) = some (.object own) := by
              rw [valueAt?, enters]
              rfl
            exact h.outer [.member "schema"] rest rfl more rfl own value
          subst none
          exact below (List.mem_singleton_self _)
        · rw [if_neg schema] at below
          have more : rest ≠ [] := by
            rintro rfl
            cases h.keyed
            cases stands
            exact schema ⟨rfl, rfl⟩
          have collected := below (ih (h.tail enters more) (p.child key))
          rwa [Pointer.child, tokens_below] at collected
      | _ => cases enters

end Outermost

section Roots

theorem member?_of_valueAt : valueAt? [.member key] document = document.member? key := by
  cases document with
  | object ms =>
    rw [valueAt?, Branch.enter?, Json.member?]
    cases Entries.get? key ms <;> rfl
  | _ => rfl

theorem valueAt?_append (path : List Branch) (b : Branch) (v : Json) :
    valueAt? (path ++ [b]) v = (valueAt? path v).bind b.enter? := by
  induction path generalizing v with
  | nil =>
    show (b.enter? v).bind (valueAt? []) = b.enter? v
    cases b.enter? v <;> rfl
  | cons c rest ih =>
    rw [List.cons_append, valueAt?, valueAt?, Option.bind_assoc]
    exact congrArg _ (funext ih)

theorem spelled_append (path : List Branch) (key : String) :
    spelled (path ++ [.member key]) = (spelled path).child key := by
  rw [spelled, spelled, List.map_append]
  rfl

theorem RootSchema.found (h : RootSchema document path v) : (spelled path).find? document = some v := by
  cases h with
  | entry above container stands =>
    refine Pointer.find?_of_valueAt ?_ stands
    rcases List.mem_cons.mp container with rfl | container
    · simp
    · rw [List.mem_singleton.mp container]
      simp
  | nested listed outermost =>
    refine Pointer.find?_of_valueAt (by simp) ?_
    rw [← member?_of_valueAt, valueAt?, Option.bind_eq_some_iff] at listed
    obtain ⟨w, enters, same⟩ := listed
    cases same
    rw [valueAt?, enters]
    exact outermost.stands

theorem RootSchema.root (h : RootSchema document path v) : spelled path ∈ roots document := by
  cases h with
  | @entry above key v container stands =>
    rw [valueAt?_append, Option.bind_eq_some_iff] at stands
    obtain ⟨holder, found, enters⟩ := stands
    have named : above.head? ≠ some (.member "") ∧ spelled above ∈ containers := by
      rcases List.mem_cons.mp container with rfl | container
      · decide
      · rw [List.mem_singleton.mp container]
        decide
    cases holder with
    | object es =>
      refine List.mem_append_left _ (List.mem_map.mpr ⟨(_, key, v), ?_, rfl⟩)
      exact mem_definitions.mpr ⟨spelled above, named.2, es, Pointer.find?_of_valueAt named.1 found,
        Entries.mem_of_get? enters, spelled_append above key⟩
    | _ => cases enters
  | nested listed outermost =>
    refine List.mem_append_right _ ?_
    rw [listed]
    exact outermost.collected (Pointer.root.child "paths")

mutual
theorem schemaPlaces_below : ∀ {p : Pointer} (v : Json), q ∈ schemaPlaces p v → p.tokens <+: q.tokens
  | _, .null, member | _, .bool _, member | _, .number _, member | _, .string _, member => nomatch member
  | _, .array xs, member => schemaPlacesItems_below 0 xs member
  | _, .object ms, member => schemaPlacesMembers_below ms member

theorem schemaPlacesItems_below {p : Pointer} (i : Nat) :
    ∀ xs : List Json, q ∈ schemaPlacesItems p i xs → p.tokens <+: q.tokens
  | [], member => nomatch member
  | x :: xs, member => by
    rcases List.mem_append.mp member with member | member
    · exact (List.prefix_append _ _).trans (schemaPlaces_below x member)
    · exact schemaPlacesItems_below (i + 1) xs member

theorem schemaPlacesMembers_below {p : Pointer} :
    ∀ ms : Members, q ∈ schemaPlacesMembers p ms → p.tokens <+: q.tokens
  | [], member => nomatch member
  | (key, x) :: ms, member => by
    rcases List.mem_append.mp member with member | member
    · split at member
      · rw [List.mem_singleton.mp member]
        exact List.prefix_append _ _
      · exact (List.prefix_append _ _).trans (schemaPlaces_below x member)
    · exact schemaPlacesMembers_below ms member
end

end Roots

section Nodes
variable {options : Options} {formats : Format.Registry} {s : Spec} {naming : Naming}
  {order : List Pointer} {id : Id}

theorem schemaAt?_text (plain : p.Plain) : s.schemaAt? p.text = s.nodeOf? p := by
  rw [schemaAt?, Pointer.hashless_text, Pointer.ofChars?_text plain]
  rfl

theorem schemaAt?_label (p : Pointer) : s.schemaAt? p.label = s.schemaAt? p.text := by
  rw [schemaAt?, schemaAt?, Pointer.hashless_label]

theorem ReadAs.root_numbered (h : s.ReadAs document naming order) (root : p ∈ roots document) :
    p ∈ order :=
  (mem_numbering h.numbered).mpr ⟨p, root, .refl⟩

theorem ReadAs.node_of_numbered (h : s.ReadAs document naming order) (numbered : p ∈ order)
    (found : p.find? document = some v) :
    ∃ id, s.nodeOf? p = some id ∧ (s.node id).pointer = p ∧ (s.node id).raw = v := by
  refine ⟨order.idxOf p, by rw [h.nodeOf?_eq, if_pos numbered], ?_⟩
  rw [h.node_at numbered, nodeAt, found]
  exact ⟨rfl, rfl⟩

theorem ReadAs.numbered_of_nodeOf? (h : s.ReadAs document naming order) (known : s.nodeOf? p = some id) :
    p ∈ order ∧ order.idxOf p = id := by
  rw [h.nodeOf?_eq] at known
  split at known
  · rename_i numbered
    exact ⟨numbered, Option.some.inj known⟩
  · cases known

theorem definition?_eq (key : String) : s.definition? key =
    ((s.nodeOf? (spelled [.member "definitions", .member key])).or
      (s.nodeOf? (spelled [.member "components", .member "schemas", .member key]))).or
        ((s.model? key).map (·.schema)) := by
  have first : (⟨["definitions"]⟩ : Pointer).child key =
      spelled [.member "definitions", .member key] := rfl
  have second : (⟨["components", "schemas"]⟩ : Pointer).child key =
      spelled [.member "components", .member "schemas", .member key] := rfl
  rw [definition?, containers, List.findSome?_cons, List.findSome?_cons, List.findSome?_nil, first, second]
  cases s.nodeOf? (spelled [.member "definitions", .member key]) <;>
    cases s.nodeOf? (spelled [.member "components", .member "schemas", .member key]) <;> rfl

/-- Items of a list are not among the definitions. -/
theorem item_not_root {xs : List Json} (array : document.member? "definitions" = some (.array xs)) :
    (Pointer.root.child "definitions").child key ∉ roots document := by
  intro root
  rcases List.mem_append.mp root with defined | listed
  · obtain ⟨⟨_, other, w⟩, member, same⟩ := List.mem_map.mp defined
    obtain ⟨c, container, es, holder, _, rfl⟩ := mem_definitions.mp member
    obtain ⟨rfl, _⟩ := Pointer.child_eq_child same
    have first : (Pointer.root.child "definitions").find? document = document.member? "definitions" :=
      find?_key (by decide) (by decide) (by decide) document
    rw [first, array] at holder
    cases holder
  · split at listed
    · rename_i paths _
      obtain ⟨_, tokens⟩ := schemaPlaces_below paths listed
      have words : "paths" = "definitions" := Pointer.escape_injective (List.cons.inj tokens).1
      exact absurd words (by decide)
    · cases listed

/-- A place two steps below the document that is no root is numbered only where a reference names it. -/
theorem ReadAs.referrer_of_item (h : s.ReadAs document naming order) {xs : List Json} {i : Nat}
    (array : document.member? "definitions" = some (.array xs))
    (spells : Pointer.indexOf? key = some i)
    (known : s.nodeOf? (spelled [.member "definitions", .member key]) = some id) :
    ∃ referrer, (s.node referrer).kind = .ref id := by
  obtain ⟨numbered, rfl⟩ := h.numbered_of_nodeOf? known
  have stray : spelled [.member "definitions", .member key] =
      (Pointer.root.child "definitions").child key := rfl
  rw [stray] at numbered ⊢
  obtain ⟨r, root, needed⟩ := (mem_numbering h.numbered).mp numbered
  rcases Relation.ReflTransGen.cases_tail needed with rfl | ⟨q, before, raw, found, need⟩
  · exact absurd root (item_not_root array)
  · obtain ⟨ms, rfl, ⟨reference, referring, aimed⟩ | ⟨r, name, _, own⟩ | items⟩ := ok_mem_needs need
    · have above : q ∈ order := (mem_numbering h.numbered).mpr ⟨r, root, before⟩
      refine ⟨order.idxOf q, ?_⟩
      rw [h.node_at above, nodeAt, found]
      simp only [Option.getD_some, kind, referring, aimed, Kind.map]
    · obtain ⟨_, _, _, _, _, same, _⟩ := own_property own
      obtain ⟨holder, _⟩ := Pointer.child_eq_child same
      obtain ⟨_, words⟩ := Pointer.child_eq_child holder
      exact absurd words (by decide)
    · obtain ⟨same, _⟩ := items_place items
      obtain ⟨_, rfl⟩ := Pointer.child_eq_child same
      have word : Pointer.indexOf? "items" = none := by decide
      rw [word] at spells
      cases spells

theorem ReadAs.item_of_stray (h : s.ReadAs document naming order)
    (absent : valueAt? [.member "definitions", .member key] document = none)
    (known : s.nodeOf? (spelled [.member "definitions", .member key]) = some id) :
    ∃ xs i, document.member? "definitions" = some (.array xs) ∧ Pointer.indexOf? key = some i ∧
      xs[i]? = some (s.node id).raw ∧ ∃ referrer, (s.node referrer).kind = .ref id := by
  obtain ⟨numbered, rfl⟩ := h.numbered_of_nodeOf? known
  obtain ⟨raw, found, _⟩ := provided_of_numbered h.numbered numbered
  obtain ⟨id, same, _, holds⟩ := h.node_of_numbered numbered found
  obtain rfl := Option.some.inj (known.symm.trans same)
  obtain ⟨read, understood, stands⟩ := Pointer.find?_spelled.mp found
  rw [Pointer.dropWhile_named (by simp)] at understood
  obtain ⟨c, _, first, others, rfl⟩ := List.forall₂_cons_left_iff.mp understood
  obtain ⟨d, _, second, ⟨⟩, rfl⟩ := List.forall₂_cons_left_iff.mp others
  cases first with
  | index spells =>
    have word : Pointer.indexOf? "definitions" = none := by decide
    rw [word] at spells
    cases spells
  | same =>
    cases second with
    | same =>
      rw [absent] at stands
      cases stands
    | @index _ i spells =>
      obtain ⟨holder, enters, stands⟩ := Option.bind_eq_some_iff.mp stands
      obtain ⟨x, present, same⟩ := Option.bind_eq_some_iff.mp stands
      cases same
      cases holder with
      | array xs =>
        have array : document.member? "definitions" = some (.array xs) := by
          rw [← member?_of_valueAt, valueAt?, enters]
          rfl
        exact ⟨xs, i, array, spells, by rw [holds]; exact present, h.referrer_of_item array spells known⟩
      | _ => cases present

/-- All root schemas have nodes of what stands at their paths. A key of `/definitions` leads to the node of
its entry, and so does a key of `/components/schemas` that is none of `/definitions`; unless `/definitions`
is a list, the key spells the index of an item of it, and a reference leads to that item. -/
theorem roots_indexed (built : build document options formats = .ok s) :
    (∀ path v, RootSchema document path v → ∃ id, s.schemaAt? (spelled path).text = some id ∧
      s.schemaAt? (spelled path).label = some id ∧ (s.node id).raw = v) ∧
    (∀ key v, valueAt? [.member "definitions", .member key] document = some v →
      s.definition? key = s.schemaAt? (spelled [.member "definitions", .member key]).text) ∧
    ∀ key v, valueAt? [.member "components", .member "schemas", .member key] document = some v →
      valueAt? [.member "definitions", .member key] document = none →
      s.definition? key =
          s.schemaAt? (spelled [.member "components", .member "schemas", .member key]).text ∨
        ∃ xs i id, document.member? "definitions" = some (.array xs) ∧ Pointer.indexOf? key = some i ∧
          xs[i]? = some (s.node id).raw ∧ (∃ referrer, (s.node referrer).kind = .ref id) ∧
          s.definition? key = some id := by
  obtain ⟨naming, order, h⟩ := read_as built
  have known : ∀ {path v}, RootSchema document path v → ∃ id, s.nodeOf? (spelled path) = some id ∧
      (s.node id).raw = v := by
    intro path v root
    obtain ⟨id, known, _, holds⟩ := h.node_of_numbered (h.root_numbered root.root) root.found
    exact ⟨id, known, holds⟩
  have text : ∀ path, s.schemaAt? (spelled path).text = s.nodeOf? (spelled path) := fun path =>
    schemaAt?_text (Pointer.spelled_plain path)
  refine ⟨fun path v root => ?_, fun key v stands => ?_, fun key v stands absent => ?_⟩
  · obtain ⟨id, known, holds⟩ := known root
    rw [schemaAt?_label, text]
    exact ⟨id, known, known, holds⟩
  · obtain ⟨id, known, _⟩ := known (.entry [.member "definitions"] List.mem_cons_self stands)
    have here : s.nodeOf? (spelled [.member "definitions", .member key]) = some id := known
    rw [text, definition?_eq, here]
    rfl
  · obtain ⟨id, known, _⟩ := known (.entry [.member "components", .member "schemas"]
      (List.mem_cons_of_mem _ (List.mem_singleton_self _)) stands)
    have here : s.nodeOf? (spelled [.member "components", .member "schemas", .member key]) = some id :=
      known
    rw [text, definition?_eq, here]
    cases stray : s.nodeOf? (spelled [.member "definitions", .member key]) with
    | none => exact .inl rfl
    | some other =>
      obtain ⟨xs, i, array, spells, item, referred⟩ := h.item_of_stray absent stray
      exact .inr ⟨xs, i, other, array, spells, item, referred, rfl⟩

end Nodes

/-- Schemas are kept in both containers and, below keys that need escapes, under `paths`. -/
def depot : Json := .object [
  ("paths", .object [("/pets", .object [("", .array [.object [("schema", .object [
    ("type", .string "array"), ("items", .object [("$ref", .string "#/definitions/a~1b")]),
    ("schema", .object [])])]])])]),
  ("components", .object [("schemas", .object [
    ("a/b", .object [("type", .string "integer")]), ("Tag", .object [("type", .string "string")])])]),
  ("definitions", .object [("a/b", .object [("type", .string "number")])])]

theorem roots_indexed_in_depot : ∃ s, build depot .standard .standard = .ok s ∧
    (∃ ms, RootSchema depot
        [.member "paths", .member "/pets", .member "", .item 0, .member "schema"] (.object ms) ∧
      ∃ id, s.schemaAt? "/paths/~1pets//0/schema" = some id ∧ (s.node id).raw = .object ms) ∧
    s.definition? "a/b" = s.schemaAt? "/definitions/a~1b" ∧
    s.definition? "Tag" = s.schemaAt? "/components/schemas/Tag" := by
  have made : (build depot .standard .standard).toOption.any (fun _ => true) = true := by decide +kernel
  obtain ⟨s, built, _⟩ := Except.exists_of_any made
  obtain ⟨nodes, definitions, components⟩ := roots_indexed built
  have written : (spelled [.member "paths", .member "/pets", .member "", .item 0, .member "schema"]).text =
      "/paths/~1pets//0/schema" := by decide +kernel
  have written' : (spelled [.member "definitions", .member "a/b"]).text = "/definitions/a~1b" := by
    decide +kernel
  have written'' : (spelled [.member "components", .member "schemas", .member "Tag"]).text =
      "/components/schemas/Tag" := by decide +kernel
  have inside : RootSchema depot
      [.member "paths", .member "/pets", .member "", .item 0, .member "schema"] _ :=
    .nested rfl (outermost_of_first [.member "/pets", .member "", .item 0] (by decide) rfl)
  obtain ⟨id, known, _, holds⟩ := nodes _ _ inside
  rw [written] at known
  have first := definitions "a/b" (.object [("type", .string "number")]) (by decide +kernel)
  rw [written'] at first
  refine ⟨s, built, ⟨_, inside, id, known, holds⟩, first, ?_⟩
  rcases components "Tag" (.object [("type", .string "string")]) (by decide +kernel) (by decide +kernel) with
    second | ⟨xs, _, _, array, _⟩
  · rwa [written''] at second
  · have object : depot.member? "definitions" = some (.object [("a/b", .object [("type", .string "number")])]) :=
      by decide +kernel
    rw [object] at array
    cases array

/-- A list of definitions, an item of which is referred to. -/
def rack : Json := .object [
  ("definitions", .array [.object [("type", .string "string")]]),
  ("components", .object [("schemas", .object [("0", .object [("type", .string "integer")]),
    ("Label", .object [("$ref", .string "#/definitions/0")])])])]

/-- The name of a component leads to an item of the list, which is no definition. -/
theorem item_taken_for_definition : ∃ s, build rack .standard .standard = .ok s ∧
    valueAt? [.member "components", .member "schemas", .member "0"] rack =
      some (.object [("type", .string "integer")]) ∧
    valueAt? [.member "definitions", .member "0"] rack = none ∧
    ∃ id, s.definition? "0" = some id ∧ s.definition? "0" ≠ s.schemaAt? "/components/schemas/0" ∧
      (s.node id).raw = .object [("type", .string "string")] := by
  have found : (build rack .standard .standard).toOption.any (fun s => decide
      (s.definition? "0" = some 2 ∧ s.definition? "0" ≠ s.schemaAt? "/components/schemas/0" ∧
      (s.node 2).raw = .object [("type", .string "string")])) = true := by
    decide +kernel
  obtain ⟨s, built, found⟩ := Except.exists_of_any found
  obtain ⟨leads, other, holds⟩ := of_decide_eq_true found
  exact ⟨s, built, by decide +kernel, by decide +kernel, 2, leads, other, holds⟩

end ApiPayload.Spec
