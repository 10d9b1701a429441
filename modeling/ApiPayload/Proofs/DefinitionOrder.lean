import ApiPayload.Proofs.Ancestry
import ApiPayload.Proofs.Complete
import ApiPayload.Proofs.Renumbering
import ApiPayload.Proofs.Reordering

/-
The order of definitions. Definitions in another order bind the same names and need the same places, so
the same nodes are built, only at other times and under other numbers; and a spec under other numbers
gives the same results.
-/
namespace ApiPayload

open Schema

theorem Schema.Kind.map_map {α β γ : Type} (f : α → β) (g : β → γ) (k : Kind α) :
    (k.map f).map g = k.map fun l => g (f l) := by
  cases k with
  | array items => cases items <;> rfl
  | object shape =>
    simp only [Kind.map, Shape.map, Entries.mapValues, List.map_map]
    rfl
  | _ => rfl

namespace Spec

section Names
variable {document document' : Json} {naming : Naming}

/-- The name that a definition is bound to, with its place. -/
def binding? (d : Pointer × String × Json) : Option (Pointer × String) :=
  if isObjectSchema d.2.2 then some (d.1, modelName d) else none

theorem bindName_eq_ok {d : Pointer × String × Json} {naming' : Naming} :
    bindName naming d = .ok naming' ↔ naming' = naming ++ (binding? d).toList ∧
      ∀ e ∈ binding? d, e.2 ∉ naming.map (·.2) := by
  constructor
  · intro step
    rcases bindName_ok step with ⟨other, rfl⟩ | ⟨object, rfl, fresh⟩
    · simp [binding?, other]
    · simp only [binding?, object, if_true, Option.toList_some, Option.mem_some_iff, true_and]
      rintro e rfl
      exact fresh
  · rintro ⟨rfl, fresh⟩
    unfold bindName
    by_cases object : isObjectSchema d.2.2 = true
    · simp only [binding?, object, if_true, Option.mem_some_iff, forall_eq'] at fresh ⊢
      have unknown : naming.find? (·.2 = (modelMark d.2.2).getD d.2.1) = none := by
        refine List.find?_eq_none.mpr fun e member same => fresh ?_
        exact List.mem_map.mpr ⟨e, member, of_decide_eq_true same⟩
      rw [unknown]
      rfl
    · simp [binding?, object]

/-- Names can be bound if no two are the same, in whatever order. -/
theorem foldlM_bindName {ds : List (Pointer × String × Json)} {acc : Naming}
    (distinct : (acc.map (·.2)).Nodup) : ds.foldlM bindName acc = .ok naming ↔
      naming = acc ++ ds.filterMap binding? ∧ (naming.map (·.2)).Nodup := by
  induction ds generalizing acc with
  | nil =>
    rw [List.foldlM_nil, List.filterMap_nil, List.append_nil]
    constructor
    · intro done
      cases done
      exact ⟨rfl, distinct⟩
    · rintro ⟨rfl, _⟩
      rfl
  | cons d rest ih =>
    have whole : acc ++ (d :: rest).filterMap binding? =
        acc ++ (binding? d).toList ++ rest.filterMap binding? := by
      rw [List.append_assoc, List.filterMap_cons]
      cases binding? d <;> rfl
    have once : (∀ e ∈ binding? d, e.2 ∉ acc.map (·.2)) ↔
        ((acc ++ (binding? d).toList).map (·.2)).Nodup := by
      cases binding? d with
      | none => simpa using distinct
      | some e =>
        simp only [Option.mem_some_iff, forall_eq', Option.toList_some, List.map_append,
          List.map_cons, List.map_nil, List.nodup_append, List.mem_singleton]
        exact ⟨fun fresh => ⟨distinct, by simp, by rintro a member b rfl rfl; exact fresh member⟩,
          fun ⟨_, _, apart⟩ member => apart e.2 member e.2 rfl rfl⟩
    rw [List.foldlM_cons, Except.bind_eq_ok, whole]
    constructor
    · rintro ⟨acc', step, later⟩
      obtain ⟨rfl, fresh⟩ := bindName_eq_ok.mp step
      exact (ih (once.mp fresh)).mp later
    · rintro ⟨rfl, names⟩
      have start : ((acc ++ (binding? d).toList).map (·.2)).Nodup := by
        rw [List.map_append] at names
        exact (List.nodup_append.mp names).1
      exact ⟨_, bindName_eq_ok.mpr ⟨rfl, once.mpr start⟩, (ih start).mpr ⟨rfl, names⟩⟩

theorem naming_reordered (moved : (definitions document).Perm (definitions document'))
    (named : (definitions document).foldlM bindName [] = .ok naming) :
    ∃ naming', (definitions document').foldlM bindName [] = .ok naming' ∧ naming.Perm naming' := by
  have none : (([] : Naming).map (·.2)).Nodup := List.nodup_nil
  obtain ⟨rfl, distinct⟩ := (foldlM_bindName none).mp named
  have names := moved.filterMap binding?
  refine ⟨_, (foldlM_bindName none).mpr ⟨rfl, ?_⟩, names⟩
  exact (names.map _).nodup_iff.mp distinct

end Names

section Places
variable {document document' : Json} {order : List Pointer} {p q : Pointer} {e : SpecError}
  (alike : ReadAlike document document')
include alike

theorem needs_iff : Needs document' p q ↔ Needs document p q := by
  rcases alike.nothing_or_akin p with ⟨none, none'⟩ | ⟨v, v', found, found', akin⟩
  · simp [Needs, none, none']
  · simp [Needs, found, found', alike.needs_eq akin]

theorem needed_iff : Needed document' p q ↔ Needed document p q := by
  have same : Needs document' = Needs document := by
    funext p q
    exact propext (needs_iff alike)
  rw [Needed, Needed, same]

theorem faultAt_iff : FaultAt document' p e ↔ FaultAt document p e := by
  rcases alike.nothing_or_akin p with ⟨none, none'⟩ | ⟨v, v', found, found', akin⟩
  · constructor
    · rintro (⟨source, _⟩ | ⟨found, _⟩)
      · exact .missing source none
      · rw [none'] at found
        cases found
    · rintro (⟨source, _⟩ | ⟨found, _⟩)
      · exact .missing source none'
      · rw [none] at found
        cases found
  · constructor
    · rintro (⟨_, absent⟩ | ⟨here, failed⟩)
      · rw [found'] at absent
        cases absent
      · obtain rfl := Option.some.inj (found'.symm.trans here)
        exact .need found (alike.needs_eq akin p ▸ failed)
    · rintro (⟨_, absent⟩ | ⟨here, failed⟩)
      · rw [found] at absent
        cases absent
      · obtain rfl := Option.some.inj (found.symm.trans here)
        exact .need found' (alike.needs_eq akin p ▸ failed)

theorem numbering_reordered (roots : ∀ p, p ∈ Spec.roots document' ↔ p ∈ Spec.roots document)
    (numbered : numbering document = .ok order) :
    ∃ order', numbering document' = .ok order' ∧ order.Perm order' := by
  have faultless := numbering_ok_iff.mp ⟨order, numbered⟩
  have numberable : ∃ order', numbering document' = .ok order' := by
    refine numbering_ok_iff.mpr fun r root q needed e fault => ?_
    exact faultless r ((roots r).mp root) q ((needed_iff alike).mp needed) e
      ((faultAt_iff alike).mp fault)
  obtain ⟨order', numbered'⟩ := numberable
  refine ⟨order', numbered', ?_⟩
  -- both number what roots need, each place once
  refine (List.perm_ext_iff_of_nodup (numbering_adds numbered).2 (numbering_adds numbered').2).mpr ?_
  intro p
  rw [mem_numbering numbered, mem_numbering numbered']
  exact exists_congr fun r => and_congr (roots r).symm (needed_iff alike).symm

end Places

section Arenas
variable {document document' : Json} {naming naming' : Naming} {order order' : List Pointer}
  {p : Pointer}

def nodesOf (document : Json) (naming : Naming) (order : List Pointer) : Array Node :=
  (order.map (nodeAt document naming order)).toArray

theorem getElem?_nodesOf (id : Id) :
    (nodesOf document naming order)[id]? = order[id]?.map (nodeAt document naming order) := by
  rw [nodesOf, List.getElem?_toArray, List.getElem?_map]

theorem definition_numbered (numbered : numbering document = .ok order)
    {d : Pointer × String × Json} (listed : d ∈ definitions document) : d.1 ∈ order :=
  (mem_numbering numbered).mpr ⟨d.1, List.mem_append_left _ (List.mem_map_of_mem listed), .refl⟩

/-- A document read twice, with its definitions in different orders. -/
structure ReadTwice (document document' : Json) (naming naming' : Naming)
    (order order' : List Pointer) : Prop where
  alike : ReadAlike document document'
  unique : document.KeysUnique
  unique' : document'.KeysUnique
  named : (definitions document).foldlM bindName [] = .ok naming
  named' : (definitions document').foldlM bindName [] = .ok naming'
  names : naming.Perm naming'
  numbered : numbering document = .ok order
  numbered' : numbering document' = .ok order'
  places : order.Perm order'

/-- The number at the second reading of what had a number at the first. -/
def renumbering (order order' : List Pointer) (id : Id) : Id :=
  (order[id]?.map order'.idxOf).getD id

theorem renumbering_idxOf (listed : p ∈ order) :
    renumbering order order' (order.idxOf p) = order'.idxOf p := by
  rw [renumbering, List.getElem?_idxOf listed]
  rfl

namespace ReadTwice

variable (h : ReadTwice document document' naming naming' order order')
include h

theorem bound (p : Pointer) : Entries.get? p naming' = Entries.get? p naming := by
  refine Option.ext fun name => ⟨fun found => ?_, fun found => ?_⟩
  · exact get?_naming h.unique h.named (h.names.mem_iff.mpr (Entries.mem_of_get? found))
  · exact get?_naming h.unique' h.named' (h.names.mem_iff.mp (Entries.mem_of_get? found))

/-- The same node is built for a place, with links to the same places. -/
theorem node_renumbered (listed : p ∈ order) :
    (nodeAt document naming order p).Renumbered (renumbering order order')
      (nodeAt document' naming' order' p) := by
  have links : ∀ q ∈ (kind document naming p ((p.find? document).getD .null)).links, q ∈ order :=
    links_numbered (provided_of_numbered h.numbered listed)
  obtain ⟨v, found, _⟩ := provided_of_numbered h.numbered listed
  rcases h.alike.nothing_or_akin p with ⟨none, _⟩ | ⟨w, w', here, there, akin⟩
  · rw [found] at none
    cases none
  · rw [here] at links
    constructor
    · simp only [nodeAt, here, there, Option.getD_some, h.alike.kind_eq h.bound akin, Kind.map_map]
      exact Kind.map_congr fun q linked => (renumbering_idxOf (links q linked)).symm
    · simp only [nodeAt, here, there, Option.getD_some]
      exact akin.member? (by decide)
    · simp only [nodeAt, here, there, Option.getD_some]
      exact nullable_akin akin
    · rfl

theorem arena_renumbered : Renumbers (renumbering order order') (nodesOf document naming order)
    (nodesOf document' naming' order') := by
  have lengths := h.places.length_eq
  refine ⟨by simp [nodesOf, lengths], fun id => ?_⟩
  rw [getElem?_nodesOf, getElem?_nodesOf, renumbering]
  cases here : order[id]? with
  | some p =>
    have listed := List.mem_of_getElem? here
    simp only [Option.map_some, Option.getD_some, List.getElem?_idxOf (h.places.mem_iff.mp listed)]
    exact h.node_renumbered listed
  | none =>
    -- a number of no node stands for itself
    have beyond : order'[id]? = none := by
      rw [List.getElem?_eq_none_iff] at here ⊢
      omega
    simp only [Option.map_none, Option.getD_none, beyond]
    exact ⟨rfl, rfl, rfl, rfl⟩

theorem above_eq (name : String) :
    above (parents document' naming') name = above (parents document naming) name := by
  by_cases known : ∃ p, (p, name) ∈ naming
  · obtain ⟨p, bound⟩ := known
    rw [get?_parents h.named bound, get?_parents h.named' (h.names.mem_iff.mp bound)]
    exact h.alike.directParents_eq h.bound p
  · have unknown : ∀ (document : Json) (naming : Naming), (¬ ∃ p, (p, name) ∈ naming) →
        above (parents document naming) name = [] := by
      intro document naming unbound
      have absent : name ∉ Entries.keys (parents document naming) := by
        simpa [parents, Entries.keys] using unbound
      rw [above, (Entries.get?_eq_none_iff _ _).mpr absent]
      rfl
    rw [unknown document naming known, unknown document' naming']
    rintro ⟨p, bound⟩
    exact known ⟨p, h.names.mem_iff.mpr bound⟩

theorem ancestors_eq (name : String) :
    ancestors (parents document' naming') name = ancestors (parents document naming) name := by
  refine NameSet.ext fun other => ?_
  rw [mem_ancestors, mem_ancestors, funext h.above_eq]

theorem models_renumbered :
    ((modelsOf (nodesOf document naming order) order naming (parents document naming)).map
      (Model.renumber (renumbering order order'))).Perm
    (modelsOf (nodesOf document' naming' order') order' naming' (parents document' naming')) := by
  rw [modelsOf, modelsOf, List.map_filterMap]
  refine List.Perm.trans (List.Perm.of_eq ?_) (h.names.filterMap _)
  refine List.filterMap_congr fun e bound => ?_
  obtain ⟨p, name⟩ := e
  -- definitions are roots, so all that is bound has a number
  obtain ⟨key, v, defined, _⟩ := (naming_ok h.named).defined p name bound
  have listed : p ∈ order := definition_numbered h.numbered defined
  simp only [getElem?_nodesOf, List.getElem?_idxOf listed,
    List.getElem?_idxOf (h.places.mem_iff.mp listed), Option.map_some]
  rw [(h.node_renumbered listed).kind]
  cases (nodeAt document naming order p).kind with
  | object shape =>
    have defaults := h.arena_renumbered.defaultsOf_eq shape.properties
    simp only [Kind.map, Kind.shape?, Option.map_some, Model.renumber, renumbering_idxOf listed,
      h.ancestors_eq, Shape.map, defaults]
  | _ => rfl

/-- If chains of aliases end in one arena, they end in the other. -/
theorem checkAliases_ok (ends : ∀ id, ∃ k, aliasEnd? (nodesOf document naming order) id = some k) :
    checkAliases (nodesOf document' naming' order') = .ok () := by
  have none : (List.range (nodesOf document' naming' order').size).find? (fun id =>
      (aliasEnd? (nodesOf document' naming' order') id).isNone) = none := by
    refine List.find?_eq_none.mpr fun id member => ?_
    have inside : id < order'.length := by simpa [nodesOf] using member
    have listed := h.places.mem_iff.mpr (List.getElem_mem inside)
    have number : renumbering order order' (order.idxOf order'[id]) = id :=
      (renumbering_idxOf listed).trans ((numbering_adds h.numbered').2.idxOf_getElem id inside)
    obtain ⟨k, ended⟩ := ends (order.idxOf order'[id])
    rw [← number, h.arena_renumbered.aliasEnd?_eq, ended]
    exact Bool.false_ne_true
  rw [checkAliases, none]

end ReadTwice
end Arenas

section Specs
variable {document document' : Json} {naming naming' : Naming} {order order' : List Pointer}
  {options : Options} {formats : Format.Registry} {s s' : Spec}

theorem ReadAs.nodeOf?_eq (h : s.ReadAs document naming order) (p : Pointer) :
    s.nodeOf? p = if p ∈ order then some (order.idxOf p) else none := by
  split
  · rename_i listed
    have found := h.nodeOf?_getElem (List.idxOf_lt_length_iff.mpr listed)
    rwa [List.getElem_idxOf] at found
  · rename_i absent
    cases found : s.nodeOf? p with
    | none => rfl
    | some id =>
      obtain ⟨inside, rfl⟩ := nodeOf?_some found
      rw [h.size_eq] at inside
      rw [h.pointer_eq inside] at absent
      exact absurd (List.getElem_mem inside) absent

theorem ReadAs.definition?_some (h : s.ReadAs document naming order) {d : Pointer × String × Json}
    (listed : d ∈ definitions document) : ∃ id, s.definition? d.2.1 = some id := by
  have numbered := definition_numbered h.numbered listed
  obtain ⟨p, key, v⟩ := d
  obtain ⟨c, container, _, _, _, rfl⟩ := mem_definitions.mp listed
  have known : (containers.findSome? fun c => s.nodeOf? (c.child key)).isSome = true := by
    refine List.findSome?_isSome_iff.mpr ⟨c, container, ?_⟩
    rw [h.nodeOf?_eq, if_pos numbered]
    rfl
  obtain ⟨id, found⟩ := Option.isSome_iff_exists.mp known
  exact ⟨id, by rw [definition?, found]; rfl⟩

theorem ReadTwice.renumbered (h : ReadTwice document document' naming naming' order order')
    (read : s.ReadAs document naming order) (read' : s'.ReadAs document' naming' order')
    (options : s'.options = s.options) (formats : s'.formats = s.formats) :
    s.Renumbered (renumbering order order') s' := by
  refine ⟨?_, fun p => ?_, ?_, fun m member other listed same => ?_, options, formats⟩
  · rw [read.nodes, read'.nodes]
    exact h.arena_renumbered
  · rw [read.nodeOf?_eq, read'.nodeOf?_eq]
    by_cases listed : p ∈ order
    · rw [if_pos listed, if_pos (h.places.mem_iff.mp listed), Option.map_some, renumbering_idxOf listed]
    · rw [if_neg listed, if_neg fun other => listed (h.places.mem_iff.mpr other)]
      rfl
  · rw [read.models, read'.models, read.nodes, read'.nodes]
    exact h.models_renumbered
  · exact read.name_injective member listed same

theorem reads_twice (moved : document.Reordered document') (unique : document.KeysUnique)
    (read : s.ReadAs document naming order) :
    ∃ naming' order', ReadTwice document document' naming naming' order order' := by
  have alike := readAlike_of_reordered moved unique
  obtain ⟨naming', named', names⟩ := naming_reordered moved.definitions_perm read.named
  obtain ⟨order', numbered', places⟩ := numbering_reordered alike moved.roots_iff read.numbered
  exact ⟨naming', order', alike, unique, moved.unique unique, read.named, named', names, read.numbered,
    numbered', places⟩

theorem build_reordered (moved : document.Reordered document') (unique : document.KeysUnique)
    (built : build document options formats = .ok s) :
    ∃ s', build document' options formats = .ok s' := by
  obtain ⟨naming, order, read⟩ := read_as built
  obtain ⟨naming', order', h⟩ := reads_twice moved unique read
  have ends := read.formed.ends
  rw [read.nodes] at ends
  have checked : checkAliases (order'.map (nodeAt document' naming' order')).toArray = .ok () :=
    h.checkAliases_ok ends
  simp only [build, h.named', h.numbered', checked, bind, Except.bind]
  exact ⟨_, rfl⟩

/-- Whatever order the definitions of a document come in, it can be read or not, and what is read of it
is the same but for numbers. -/
theorem definition_order (moved : document.Reordered document') (unique : document.KeysUnique)
    (options : Options) (formats : Format.Registry) :
    ((∃ s, build document options formats = .ok s) ↔
      ∃ s', build document' options formats = .ok s') ∧
    ∀ s s', build document options formats = .ok s → build document' options formats = .ok s' →
      s.Interchangeable s' := by
  refine ⟨⟨fun ⟨s, built⟩ => build_reordered moved unique built,
    fun ⟨s', built'⟩ => build_reordered moved.symm (moved.unique unique) built'⟩, ?_⟩
  intro s s' built built'
  obtain ⟨naming, order, read⟩ := read_as built
  obtain ⟨naming', order', read'⟩ := read_as built'
  obtain ⟨_, _, twice⟩ := reads_twice moved unique read
  obtain rfl := Except.ok.inj (twice.named'.symm.trans read'.named)
  obtain rfl := Except.ok.inj (twice.numbered'.symm.trans read'.numbered)
  obtain ⟨given, registered⟩ := build_given built
  obtain ⟨given', registered'⟩ := build_given built'
  have renumbered := twice.renumbered read read' (given'.trans given.symm)
    (registered'.trans registered.symm)
  exact renumbered.interchangeable fun d listed => read.definition?_some (read.same ▸ listed)

end Specs

/-- Fleets name ships before ships are defined, tugs are ships, and all lead round to one another. -/
def harbour : List (String × Json) := [
  ("Fleet", .object [("properties", .object [
    ("flag", .object [("$ref", .string "#/definitions/Ship")]),
    ("ships", .object [("type", .string "array"),
      ("items", .object [("$ref", .string "#/definitions/Ship")])])])]),
  ("Tug", .object [("allOf", .array [.object [("$ref", .string "#/definitions/Ship")],
    .object [("required", .array [.string "tows"]),
      ("properties", .object [("tows", .object [("$ref", .string "#/definitions/Fleet")])])]])]),
  ("Ship", .object [("discriminator", .string "kind"), ("required", .array [.string "kind"]),
    ("properties", .object [("kind", .object [("type", .string "string")]),
      ("masts", .object [("type", .string "integer"), ("default", .number (.int 0))])])])]

theorem definition_order_in_harbour : ∃ s s',
    build (.object [("definitions", .object harbour)]) .standard .standard = .ok s ∧
    build (.object [("definitions", .object harbour.reverse)]) .standard .standard = .ok s' ∧
    s.definition? "Fleet" = some 0 ∧ s'.definition? "Fleet" = some 5 ∧ s.Interchangeable s' := by
  have unique : (Json.object [("definitions", .object harbour)]).KeysUnique := by
    simp [harbour, Json.KeysUnique, Json.KeysUniqueItems, Json.KeysUniqueMembers, Entries.keys]
  have moved : (Json.object [("definitions", .object harbour)]).Reordered
      (.object [("definitions", .object harbour.reverse)]) :=
    .definitions [] [] (List.reverse_perm harbour).symm
  have made : (build (.object [("definitions", .object harbour)]) .standard .standard).toOption.any
      (fun s => s.definition? "Fleet" = some 0) = true := by
    decide +kernel
  have made' : (build (.object [("definitions", .object harbour.reverse)]) .standard .standard).toOption.any
      (fun s => s.definition? "Fleet" = some 5) = true := by
    decide +kernel
  obtain ⟨s, built, first⟩ := Except.exists_of_any made
  obtain ⟨s', built', last⟩ := Except.exists_of_any made'
  obtain ⟨_, same⟩ := definition_order moved unique .standard .standard
  exact ⟨s, s', built, built', of_decide_eq_true first, of_decide_eq_true last, same s s' built built'⟩

end Spec
end ApiPayload
