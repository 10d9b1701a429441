import ApiPayload.Proofs.Models
import ApiPayload.Proofs.References

/-
Definitions in another order. Nothing that is read of a fragment depends on the order of definitions:
what stands at a place stays what it is, but for the definitions themselves and the whole document, and
of these nothing is read but what stands under a key.
-/
namespace ApiPayload

namespace Json

/-- A document again, with its definitions in some order. -/
inductive Reordered : Json → Json → Prop where
  | same (document : Json) : Reordered document document
  | definitions (before after : List (String × Json)) {ms ms' : List (String × Json)}
      (moved : ms.Perm ms') :
      Reordered (.object (before ++ ("definitions", .object ms) :: after))
        (.object (before ++ ("definitions", .object ms') :: after))

/-- The same value, or objects with the same members but for definitions. -/
inductive Akin : Json → Json → Prop where
  | same (v : Json) : Akin v v
  | object {ms ms' : List (String × Json)}
      (members : ∀ key, key ≠ "definitions" → Entries.get? key ms' = Entries.get? key ms) :
      Akin (.object ms) (.object ms')

theorem Akin.member? {v v' : Json} (h : Akin v v') {key : String} (other : key ≠ "definitions") :
    v'.member? key = v.member? key := by
  cases h with
  | same => rfl
  | object members => exact members key other

theorem Akin.rel_self : ∀ o : Option Json, Option.Rel Akin o o
  | none => .none
  | some v => .some (.same v)

theorem sizeMembers_eq (ms : List (String × Json)) :
    sizeMembers ms = (ms.map fun m => m.2.size).sum := by
  induction ms with
  | nil => rfl
  | cons m rest ih => rw [sizeMembers, ih, List.map_cons, List.sum_cons]

namespace Reordered

variable {document document' : Json}

theorem symm (h : Reordered document document') : Reordered document' document := by
  cases h with
  | same => exact .same _
  | definitions before after moved => exact .definitions before after moved.symm

theorem member? (h : Reordered document document') (key : String) :
    document'.member? key = document.member? key ∨ key = "definitions" ∧ ∃ ms ms',
      document.member? key = some (.object ms) ∧ document'.member? key = some (.object ms') ∧
        ms.Perm ms' := by
  cases h with
  | same => exact .inl rfl
  | @definitions before after ms ms' moved =>
    simp only [Json.member?, Entries.get?_append, Entries.get?]
    by_cases here : key = "definitions"
    · subst here
      cases Entries.get? "definitions" before with
      | some v => exact .inl rfl
      | none => exact .inr ⟨rfl, ms, ms', by simp, by simp, moved⟩
    · exact .inl (by simp only [Ne.symm here, if_false])

theorem akin (h : Reordered document document') : Akin document document' := by
  have members := h.member?
  cases h with
  | same => exact .same _
  | definitions =>
    refine .object fun key other => ?_
    rcases members key with same | ⟨here, _⟩
    · exact same
    · exact absurd here other

theorem size_eq (h : Reordered document document') : document'.size = document.size := by
  cases h with
  | same => rfl
  | definitions before after moved =>
    have inner := (moved.map fun m : String × Json => m.2.size).sum_eq
    simp only [size, sizeMembers_eq, List.map_append, List.map_cons, List.sum_append, List.sum_cons]
    omega

theorem unique (h : Reordered document document') (unique : document.KeysUnique) :
    document'.KeysUnique := by
  cases h with
  | same => exact unique
  | @definitions before after ms ms' moved =>
    obtain ⟨distinct, members⟩ := unique
    rw [keysUniqueMembers_iff] at members
    obtain ⟨keys, values⟩ : (object ms).KeysUnique := members ("definitions", object ms) (by simp)
    have own : (object ms').KeysUnique := by
      refine ⟨(moved.map Prod.fst).nodup_iff.mp keys, keysUniqueMembers_iff.mpr fun m member => ?_⟩
      exact keysUniqueMembers_iff.mp values m (moved.mem_iff.mpr member)
    refine ⟨by simpa [Entries.keys] using distinct, keysUniqueMembers_iff.mpr fun m member => ?_⟩
    rcases List.mem_append.mp member with member | member
    · exact members m (List.mem_append_left _ member)
    · rcases List.mem_cons.mp member with rfl | member
      · exact own
      · exact members m (List.mem_append_right _ (List.mem_cons_of_mem _ member))

theorem find? (h : Reordered document document') (unique : document.KeysUnique) (p : Pointer) :
    Option.Rel Akin (p.find? document) (p.find? document') := by
  rw [Pointer.find?, Pointer.find?]
  cases p.tokens.dropWhile fun token => token = "" with
  | nil => exact .some h.akin
  | cons t ts =>
    have below := h.member? (Pointer.unescape t)
    cases h with
    | same => exact Akin.rel_self _
    | definitions before after moved =>
      rw [Pointer.walk, Pointer.walk, Pointer.step, Pointer.step]
      rcases below with same | ⟨_, ms, ms', found, found', moved⟩
      · rw [Json.member?, Json.member?] at same
        rw [same]
        exact Akin.rel_self _
      · have distinct : (Entries.keys ms).Nodup :=
          (keysUniqueMembers_iff.mp unique.2 _ (Entries.mem_of_get? found)).1
        have members := Entries.get?_perm moved distinct
        rw [Json.member?] at found found'
        rw [found, found', Option.bind_some, Option.bind_some]
        -- nothing but the whole of the definitions shows their order
        cases ts with
        | nil => exact .some (.object fun key _ => members key)
        | cons u us =>
          rw [Pointer.walk, Pointer.walk, Pointer.step, Pointer.step, members]
          exact Akin.rel_self _

theorem definitions_perm (h : Reordered document document') :
    (Spec.definitions document).Perm (Spec.definitions document') := by
  have schemas : document'.member? "components" = document.member? "components" := by
    rcases h.member? "components" with same | ⟨other, _⟩
    · exact same
    · exact absurd other (by decide)
  have defined : ∀ v : Json, (⟨["definitions"]⟩ : Pointer).find? v = v.member? "definitions" :=
    Schema.find?_key (by decide) (by decide) (by decide)
  simp only [Spec.definitions, Spec.containers, List.flatMap_cons, List.flatMap_nil, List.append_nil,
    Schema.find?_schemas, schemas, defined]
  refine List.Perm.append_right _ ?_
  rcases h.member? "definitions" with same | ⟨_, ms, ms', found, found', moved⟩
  · rw [same]
  · rw [found, found']
    exact moved.map _

theorem roots_iff (h : Reordered document document') (p : Pointer) :
    p ∈ Spec.roots document' ↔ p ∈ Spec.roots document := by
  have paths : document'.member? "paths" = document.member? "paths" := by
    rcases h.member? "paths" with same | ⟨other, _⟩
    · exact same
    · exact absurd other (by decide)
  rw [Spec.roots, Spec.roots, paths, List.mem_append, List.mem_append]
  exact or_congr_left ((h.definitions_perm.map _).mem_iff).symm

end Reordered
end Json

namespace Schema

open Json

section Members
variable {ms ms' : Members}
  (same : ∀ key, key ≠ "definitions" → Entries.get? key ms' = Entries.get? key ms)
include same

theorem declaredType_akin : declaredType ms' = declaredType ms := by
  have properties : Entries.contains "properties" ms' = Entries.contains "properties" ms :=
    congrArg Option.isSome (same "properties" (by decide))
  have parts : Entries.contains "allOf" ms' = Entries.contains "allOf" ms :=
    congrArg Option.isSome (same "allOf" (by decide))
  rw [declaredType, declaredType, same "type" (by decide), properties, parts]

theorem isNullable_akin : isNullable ms' = isNullable ms := by
  simp only [isNullable, isFlagged, same "x-nullable" (by decide), same "nullable" (by decide),
    same "type" (by decide)]

theorem itemsPlace?_akin (p : Pointer) : itemsPlace? p ms' = itemsPlace? p ms := by
  simp only [itemsPlace?, same "items" (by decide)]

theorem allOf_akin : allOf ms' = allOf ms := by
  simp only [allOf, same "allOf" (by decide)]

theorem formatName_akin : formatName ms' = formatName ms := by
  simp only [formatName, same "format" (by decide)]

theorem discriminator_akin : discriminator ms' = discriminator ms := by
  simp only [discriminator, same "discriminator" (by decide)]

end Members

theorem nullable_akin {v v' : Json} (akin : Akin v v') : nullable v' = nullable v := by
  cases akin with
  | same => rfl
  | object members => exact isNullable_akin members

/-- Two documents of one size with the same at each place, so far as fragments are read. -/
structure ReadAlike (document document' : Json) : Prop where
  size : document'.size = document.size
  found : ∀ p : Pointer, Option.Rel Akin (p.find? document) (p.find? document')

theorem readAlike_of_reordered {document document' : Json} (h : document.Reordered document')
    (unique : document.KeysUnique) : ReadAlike document document' :=
  ⟨h.size_eq, h.find? unique⟩

namespace ReadAlike

variable {document document' v v' : Json} {naming naming' : Naming}
  (h : ReadAlike document document') (bound : ∀ p, Entries.get? p naming' = Entries.get? p naming)
include h

theorem nothing_or_akin (p : Pointer) : p.find? document = none ∧ p.find? document' = none ∨
    ∃ v v', p.find? document = some v ∧ p.find? document' = some v' ∧ Akin v v' := by
  have found := h.found p
  generalize p.find? document = o, p.find? document' = o' at found ⊢
  cases found with
  | none => exact .inl ⟨rfl, rfl⟩
  | some akin => exact .inr ⟨_, _, rfl, rfl, akin⟩

theorem reference (p : Pointer) : (p.find? document').bind (Json.member? "$ref") =
    (p.find? document).bind (Json.member? "$ref") := by
  rcases h.nothing_or_akin p with ⟨none, none'⟩ | ⟨v, v', found, found', akin⟩
  · rw [none, none']
  · rw [found, found']
    exact akin.member? (by decide)

theorem members (p : Pointer) (key : String) (other : key ≠ "definitions") :
    Entries.get? key (membersAt document' p) = Entries.get? key (membersAt document p) := by
  unfold membersAt
  rcases h.nothing_or_akin p with ⟨none, none'⟩ | ⟨v, v', found, found', akin⟩
  · rw [none, none']
  · rw [found, found']
    cases akin with
    | same => rfl
    | object members => exact members key other

theorem unalias_eq (source : Pointer) (fuel : Nat) (p : Pointer) :
    unalias document' source fuel p = unalias document source fuel p := by
  induction fuel generalizing p with
  | zero => rfl
  | succ fuel ih => simp only [unalias, h.reference p, ih]

theorem checked_eq (source place : Pointer) : (match place.find? document' with
      | some (.object _) => (.ok place : Except SpecError Pointer)
      | _ => .error (.unresolvable source place.label)) =
    match place.find? document with
      | some (.object _) => .ok place
      | _ => .error (.unresolvable source place.label) := by
  rcases h.nothing_or_akin place with ⟨none, none'⟩ | ⟨v, v', found, found', akin⟩
  · rw [none, none']
  · rw [found, found']
    cases akin <;> rfl

theorem partPlace_eq (source : Pointer) (i : Nat) (part : Json) :
    partPlace document' source i part = partPlace document source i part := by
  rw [partPlace, partPlace, aliasLimit, aliasLimit, h.size]
  cases part.member? "$ref" with
  | none => exact h.checked_eq source _
  | some reference =>
    refine congrArg (target source reference >>= ·) (funext fun aim => ?_)
    rw [h.unalias_eq]
    exact congrArg (_ >>= ·) (funext (h.checked_eq source))

theorem layers_eq (p : Pointer) : layers document' p = layers document p := by
  have parts : Layer.parts document' = Layer.parts document := by
    funext l
    cases l with
    | fault e => rfl
    | fragment q => simp only [Layer.parts, allOf_akin (h.members q), h.partPlace_eq]
  rw [layers, layers, parts, placeLimit, placeLimit, h.size]

theorem ownProperties_eq (p : Pointer) : ownProperties document' p = ownProperties document p := by
  simp only [ownProperties, h.members p "properties" (by decide)]

theorem ownRequired_eq (p : Pointer) : ownRequired document' p = ownRequired document p := by
  simp only [ownRequired, h.members p "required" (by decide)]

theorem needs_eq (akin : Akin v v') (p : Pointer) : needs document' p v' = needs document p v := by
  cases akin with
  | same =>
    simp only [needs, h.layers_eq, h.ownProperties_eq]
  | object members =>
    simp only [needs, h.layers_eq, h.ownProperties_eq, members "$ref" (by decide),
      declaredType_akin members, itemsPlace?_akin members]

include bound

theorem directParents_eq (p : Pointer) :
    directParents document' naming' p = directParents document naming p := by
  simp only [directParents, allOf_akin (h.members p), aliasLimit, h.size, h.unalias_eq, bound]

theorem shape_eq {ms ms' : Members}
    (same : ∀ key, key ≠ "definitions" → Entries.get? key ms' = Entries.get? key ms) (p : Pointer) :
    shape document' naming' p ms' = shape document naming p ms := by
  simp only [shape, h.layers_eq, h.ownProperties_eq, funext h.ownRequired_eq, discriminator_akin same,
    same "x-model" (by decide), bound]

theorem kind_eq (akin : Akin v v') (p : Pointer) :
    kind document' naming' p v' = kind document naming p v := by
  have objects : ∀ ms ms' : Members,
      (∀ key, key ≠ "definitions" → Entries.get? key ms' = Entries.get? key ms) →
      kind document' naming' p (.object ms') = kind document naming p (.object ms) := by
    intro ms ms' same
    simp only [kind, same "$ref" (by decide), declaredType_akin same, itemsPlace?_akin same,
      formatName_akin same, h.shape_eq bound same]
  cases akin with
  | object members => exact objects _ _ members
  | same =>
    cases v with
    | object ms => exact objects ms ms fun _ _ => rfl
    | _ => rfl

end ReadAlike
end Schema
end ApiPayload
