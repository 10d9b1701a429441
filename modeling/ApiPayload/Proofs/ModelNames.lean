import ApiPayload.Proofs.RootSchemas

/-
Models by their names. Names share one lookup with the keys of definitions, which come first, and with
pointers; so the name of a model leads to its schema unless another definition has it for a key, or it is
written like a pointer.
-/
namespace ApiPayload

open Schema

namespace Pointer

variable {p : Pointer} {cs : List Char}

theorem flatMap_splitSlashes (cs : List Char) : (splitSlashes cs).flatMap ('/' :: ·) = '/' :: cs := by
  induction cs with
  | nil => rfl
  | cons c rest ih =>
    by_cases slash : c = '/'
    · rw [splitSlashes, if_pos slash, List.flatMap_cons, ih, slash]
      rfl
    · obtain ⟨part, parts, split, more⟩ := splitSlashes_cons slash rest
      rw [split, List.flatMap_cons, List.cons_append] at ih
      rw [more, List.flatMap_cons, List.cons_append, List.cons_append]
      exact congrArg ('/' :: c :: ·) (List.cons.inj ih).2

/-- Read and written out again, the text of a pointer is the same. -/
theorem text_ofChars? (read : ofChars? cs = some p) : p.text = String.ofList cs := by
  unfold ofChars? at read
  split at read
  · cases read
    rfl
  · rename_i rest
    cases read
    rw [text, ofParts, List.flatMap_map, ← flatMap_splitSlashes]
    simp only [String.toList_ofList]
  · cases read

end Pointer

namespace Spec

variable {document : Json} {naming : Naming} {order : List Pointer} {s : Spec} {p : Pointer}
  {key name : String} {id : Id}

/-- The first definition under a key, those of `/definitions` before those of `/components/schemas`. -/
def keyed? (document : Json) (key : String) : Option (Pointer × String × Json) :=
  (definitions document).find? fun d => d.2.1 = key

/-- The definitions in a container, with their pointers. -/
def definitionsAt (document : Json) (c : Pointer) : List (Pointer × String × Json) :=
  match c.find? document with
  | some (.object ms) => ms.map fun e => (c.child e.1, e.1, e.2)
  | _ => []

/-- No container of definitions is a list with an item whose index a name spells. -/
def NoItem (document : Json) (name : String) : Prop :=
  ∀ c ∈ containers, ∀ xs i, c.find? document = some (.array xs) → Pointer.indexOf? name = some i →
    xs[i]? = none

/-- Texts that are taken for pointers. -/
def IsReference (text : String) : Prop := text.toList.head? = some '#' ∨ text.toList.head? = some '/'

instance (text : String) : Decidable (IsReference text) :=
  inferInstanceAs (Decidable (text.toList.head? = some '#' ∨ text.toList.head? = some '/'))

theorem resolve_reference (written : IsReference name) :
    s.resolve name = .ok id ↔ s.schemaAt? name = some id := by
  unfold resolve
  split
  · exact ⟨of_known, fun known => by rw [known]⟩
  · exact ⟨of_known, fun known => by rw [known]⟩
  · rename_i unmarked unslashed
    rcases written with mark | slash
    · obtain ⟨rest, chars⟩ := List.head?_eq_some_iff.mp mark
      exact (unmarked rest chars).elim
    · obtain ⟨rest, chars⟩ := List.head?_eq_some_iff.mp slash
      exact (unslashed rest chars).elim

theorem resolve_name (plain : ¬ IsReference name) :
    s.resolve name = .ok id ↔ s.definition? name = some id := by
  unfold resolve
  split
  · rename_i marked
    exact absurd (.inl (by rw [marked]; rfl)) plain
  · rename_i slashed
    exact absurd (.inr (by rw [slashed]; rfl)) plain
  · exact ⟨of_known, fun known => by rw [known]⟩

theorem find?_entries (c : Pointer) (ms : Members) (key : String) :
    (ms.map fun e => (c.child e.1, e.1, e.2)).find? (fun d => d.2.1 = key) =
      (Entries.get? key ms).map fun v => (c.child key, key, v) := by
  induction ms with
  | nil => rfl
  | cons e rest ih =>
    obtain ⟨other, v⟩ := e
    rw [List.map_cons, List.find?_cons, Entries.get?]
    by_cases same : other = key
    · rw [if_pos same, same]
      simp
    · simp only [same, decide_false, if_false]
      exact ih

/-- A place below a container has a node exactly if an entry stands there. -/
theorem ReadAs.nodeOf?_child (h : s.ReadAs document naming order) {c : Pointer} (container : c ∈ containers)
    (items : ∀ xs i, c.find? document = some (.array xs) → Pointer.indexOf? key = some i → xs[i]? = none) :
    s.nodeOf? (c.child key) =
      ((definitionsAt document c).find? fun d => d.2.1 = key).map fun d => order.idxOf d.1 := by
  have leads : ∀ c ∈ containers, ∃ u ∈ c.tokens, u ≠ "" := by decide
  have stands : (c.child key).find? document = (c.find? document).bind (Pointer.step (Pointer.escape key)) :=
    Pointer.find?_append (.inr (leads c container)) document
  have unnumbered : (c.child key).find? document = none → s.nodeOf? (c.child key) = none := by
    intro nothing
    rw [h.nodeOf?_eq, if_neg]
    intro numbered
    obtain ⟨raw, found, _⟩ := provided_of_numbered h.numbered numbered
    rw [nothing] at found
    cases found
  unfold definitionsAt
  cases found : c.find? document with
  | none => exact unnumbered (by rw [stands, found]; rfl)
  | some v =>
    rw [found, Option.bind_some] at stands
    cases v with
    | object ms =>
      rw [Pointer.step, Pointer.unescape_escape] at stands
      dsimp only
      rw [find?_entries, Option.map_map]
      cases present : Entries.get? key ms with
      | none => exact unnumbered (stands.trans present)
      | some x =>
        have listed : (c.child key, key, x) ∈ definitions document :=
          mem_definitions.mpr ⟨c, container, ms, found, Entries.mem_of_get? present, rfl⟩
        rw [h.nodeOf?_eq, if_pos (definition_numbered h.numbered listed)]
        rfl
    | array xs =>
      refine unnumbered (stands.trans ?_)
      rw [Pointer.step, Pointer.unescape_escape]
      cases spelled : Pointer.indexOf? key with
      | none => rfl
      | some i => exact items xs i found spelled
    | _ => exact unnumbered stands

/-- A name leads to the first definition that has it for a key, and else to the model of that name. -/
theorem ReadAs.definition?_keyed (h : s.ReadAs document naming order) (items : NoItem document name) :
    s.definition? name =
      ((keyed? document name).map fun d => order.idxOf d.1).or ((s.model? name).map (·.schema)) := by
  have first : ∀ cs ⊆ containers, cs.findSome? (fun c => s.nodeOf? (c.child name)) =
      ((cs.flatMap (definitionsAt document)).find? fun d => d.2.1 = name).map fun d => order.idxOf d.1 := by
    intro cs listed
    induction cs with
    | nil => rfl
    | cons c rest ih =>
      have container := listed List.mem_cons_self
      rw [List.findSome?_cons, List.flatMap_cons, List.find?_append, h.nodeOf?_child container (items c container),
        ih fun _ member => listed (List.mem_cons_of_mem c member)]
      cases List.find? _ _ <;> rfl
  rw [definition?, first containers (List.Subset.refl _)]
  rfl

section Models
variable {options : Options} {formats : Format.Registry} {m : Model}

/-- The definition that a model comes from. -/
theorem ReadAs.own_definition (h : s.ReadAs document naming order) (member : m ∈ s.models) :
    ∃ own ∈ definitions document, isObjectSchema own.2.2 = true ∧ modelName own = m.name ∧
      m.schema = order.idxOf own.1 ∧ (s.node m.schema).pointer = own.1 := by
  obtain ⟨p, ms, origin⟩ := h.origin member
  obtain ⟨key, v, listed, object, name⟩ := (naming_ok h.named).defined p m.name origin.named
  refine ⟨(p, key, v), listed, object, name.symm, origin.schema, ?_⟩
  rw [origin.schema, h.node_at origin.numbered]
  rfl

theorem definition_plain {d : Pointer × String × Json} (listed : d ∈ definitions document) : d.1.Plain := by
  obtain ⟨p, key, v⟩ := d
  obtain ⟨c, container, _, _, _, rfl⟩ := mem_definitions.mp listed
  have plain : ∀ c ∈ containers, c.Plain := by
    unfold Pointer.Plain
    decide
  exact (plain c container).child key

/-- A name that is written like a pointer leads to a definition only as its pointer. -/
theorem ReadAs.schemaAt?_iff (h : s.ReadAs document naming order) {own : Pointer × String × Json}
    (listed : own ∈ definitions document) (name : String) :
    s.schemaAt? name = some (order.idxOf own.1) ↔
      String.ofList (Pointer.hashless name) = own.1.text := by
  have numbered := definition_numbered h.numbered listed
  constructor
  · intro known
    obtain ⟨p, read, known⟩ := Option.bind_eq_some_iff.mp known
    obtain ⟨present, same⟩ := h.numbered_of_nodeOf? known
    rw [← Pointer.text_ofChars? read, (List.idxOf_inj present).mp same]
  · intro spelled
    rw [schemaAt?, ← String.toList_ofList (l := Pointer.hashless name), spelled,
      Pointer.ofChars?_text (definition_plain listed), Option.bind_some, h.nodeOf?_eq, if_pos numbered]

/-- A model that is looked up by its name. A name that is written like a pointer is read as one, and leads to
the model's schema exactly if it is the pointer of the model's own definition. Any other name leads somewhere:
to the first definition that has it for a key, so to the model's schema exactly if that is the model's own
definition or there is none. -/
theorem model_names_resolve (built : build document options formats = .ok s) (member : m ∈ s.models) :
    ∃ own ∈ definitions document, isObjectSchema own.2.2 = true ∧ modelName own = m.name ∧
      (s.node m.schema).pointer = own.1 ∧
      (IsReference m.name → (s.resolve m.name = .ok m.schema ↔
        String.ofList (Pointer.hashless m.name) = own.1.text)) ∧
      (¬ IsReference m.name → NoItem document m.name →
        (∃ id, s.resolve m.name = .ok id) ∧
        (∀ e ∈ keyed? document m.name, ∃ id, s.resolve m.name = .ok id ∧ s.schemaAt? e.1.text = some id) ∧
        (s.resolve m.name = .ok m.schema ↔ ∀ e ∈ keyed? document m.name, e.1 = own.1)) := by
  obtain ⟨naming, order, h⟩ := read_as built
  obtain ⟨own, listed, object, name, schema, pointer⟩ := h.own_definition member
  refine ⟨own, listed, object, name, pointer, fun written => ?_, fun plain items => ?_⟩
  · rw [resolve_reference written, schema, h.schemaAt?_iff listed]
  · have leads : ∀ id, s.resolve m.name = .ok id ↔
        ((keyed? document m.name).map fun d => order.idxOf d.1).or (some m.schema) = some id := by
      intro id
      rw [resolve_name plain, h.definition?_keyed items, h.model?_of_mem member]
      rfl
    cases first : keyed? document m.name with
    | none =>
      have here : s.resolve m.name = .ok m.schema := (leads _).mpr (by rw [first]; rfl)
      exact ⟨⟨_, here⟩, nofun, fun _ => nofun, fun _ => here⟩
    | some e =>
      have known : e ∈ definitions document := List.mem_of_find?_eq_some first
      have here : s.resolve m.name = .ok (order.idxOf e.1) := (leads _).mpr (by rw [first]; rfl)
      refine ⟨⟨_, here⟩, ?_, ?_⟩
      · rintro _ ⟨⟩
        refine ⟨_, here, (h.schemaAt?_iff known _).mpr ?_⟩
        rw [Pointer.hashless_text, String.ofList_toList]
      · rw [here, schema, Except.ok.injEq, List.idxOf_inj (definition_numbered h.numbered known)]
        simp

end Models

/-- Some models have names of their own, one has the key of another definition, two are named like pointers. -/
def pound : Json := .object [("definitions", .object [
  ("Pet", .object [("type", .string "object"), ("title", .string "Tag")]),
  ("Tag", .object [("type", .string "string")]),
  ("Dog", .object [("type", .string "object"), ("title", .string "Hound")]),
  ("Den", .object [("type", .string "object"), ("title", .string "#/definitions/Den")]),
  ("Pen", .object [("type", .string "object"), ("title", .string "/Pen")])])]

theorem model_names_resolve_in_pound : ∃ s, build pound .standard .standard = .ok s ∧
    (∃ m ∈ s.models, m.name = "Hound" ∧ s.resolve "Hound" = .ok m.schema) ∧
    ∃ m ∈ s.models, m.name = "#/definitions/Den" ∧ s.resolve "#/definitions/Den" = .ok m.schema := by
  have made : (build pound .standard .standard).toOption.any (fun s => decide
      ((∃ m ∈ s.models, m.name = "Hound") ∧ ∃ m ∈ s.models, m.name = "#/definitions/Den" ∧
        (s.node m.schema).pointer.text = "/definitions/Den")) = true := by
    decide +kernel
  have free : keyed? pound "Hound" = none := by decide +kernel
  have hashless : String.ofList (Pointer.hashless "#/definitions/Den") = "/definitions/Den" := by
    decide +kernel
  obtain ⟨s, built, made⟩ := Except.exists_of_any made
  obtain ⟨⟨m, member, name⟩, other, listed, name', text⟩ := of_decide_eq_true made
  have items : NoItem pound m.name := by
    intro c container xs i list
    have objects : ∀ c ∈ containers, ((c.find? pound).bind Json.array?) = none := by decide +kernel
    have none := objects c container
    rw [list] at none
    cases none
  obtain ⟨_, _, _, _, _, _, named⟩ := model_names_resolve built member
  obtain ⟨_, _, _, _, pointer, spelled, _⟩ := model_names_resolve built listed
  refine ⟨s, built, ⟨m, member, name, ?_⟩, other, listed, name', ?_⟩
  · have plain : ¬ IsReference m.name := by
      rw [name]
      decide
    obtain ⟨_, _, own⟩ := named plain items
    rw [name, free] at own
    exact own.mpr nofun
  · rw [name'] at spelled
    refine (spelled (by decide)).mpr ?_
    rw [hashless, ← pointer, text]

/-- The name of one model leads to another definition, and that of another leads nowhere. -/
theorem model_names_taken : ∃ s, build pound .standard .standard = .ok s ∧
    (∃ m ∈ s.models, m.name = "Tag" ∧ s.resolve m.name ≠ .ok m.schema ∧
      ∃ id, s.resolve m.name = .ok id ∧ (s.node id).pointer.text = "/definitions/Tag") ∧
    ∃ m ∈ s.models, m.name = "/Pen" ∧ ∀ id, s.resolve m.name ≠ .ok id := by
  have found : (build pound .standard .standard).toOption.any (fun s => decide
      ((∃ m ∈ s.models, m.name = "Tag" ∧ m.schema ≠ 1) ∧ (∃ m ∈ s.models, m.name = "/Pen") ∧
        (s.resolve "Tag").toOption = some 1 ∧ (s.node 1).pointer.text = "/definitions/Tag" ∧
        (s.resolve "/Pen").toOption = none)) = true := by
    decide +kernel
  obtain ⟨s, built, found⟩ := Except.exists_of_any found
  obtain ⟨⟨m, member, name, other⟩, ⟨pen, listed, name'⟩, leads, text, nowhere⟩ := of_decide_eq_true found
  have leads : s.resolve m.name = .ok 1 := by
    rw [name]
    cases tag : s.resolve "Tag" with
    | error e =>
      rw [tag] at leads
      cases leads
    | ok id =>
      rw [tag] at leads
      exact congrArg Except.ok (Option.some.inj leads)
  refine ⟨s, built, ⟨m, member, name, ?_, 1, leads, text⟩, pen, listed, name', fun id known => ?_⟩
  · rw [leads]
    exact fun same => other (Except.ok.inj same).symm
  · rw [name'] at known
    rw [known] at nowhere
    cases nowhere

end Spec
end ApiPayload
