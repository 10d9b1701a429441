import Mathlib.Data.Fintype.Card
import Mathlib.Data.Set.Finite.List
import ApiPayload.Proofs.Detachment
import ApiPayload.Proofs.TagChecks

/-
Runs come to an end. Where models that are ancestors of one another tell their subtypes by the same
property, no value is handed round: the tag that leads to a model is its own name there. So a value
stays at some model after few choices, and its parts are smaller.
-/
namespace ApiPayload

open Schema

variable {α β : Type}

namespace Spec

open Validation

variable {s : Spec} {document : Json} {options : Options} {formats : Format.Registry}
  {naming : Naming} {order : List Pointer} {d : Direction α β} {v : α} {b m z : Model} {k last : Key}
  {es : List (String × α)} {ms : List (String × Json)} {shape : Shape Id} {id : Id} {n : Nat}

/-- Models that are ancestors of one another tell their subtypes by the same property, if by any. -/
def SharedMarks (s : Spec) : Prop :=
  ∀ a ∈ s.models, ∀ b ∈ s.models, a.name ∈ b.ancestors → b.name ∈ a.ancestors →
    a.shape.discriminator = none ∨ b.shape.discriminator = none ∨
      a.shape.discriminator = b.shape.discriminator

/-- One model hands an object with some entries to another. -/
def Hands (s : Spec) (d : Direction α β) (es : List (String × α)) (b m : Model) : Prop :=
  s.subtype? d b es = some m

section Models
variable (h : s.ReadAs document naming order)
include h

theorem ReadAs.isA_of_way (listed : b ∈ s.models)
    (way : Relation.ReflTransGen (s.Hands d es) b m) : m ∈ s.models ∧ m.isA b.name = true := by
  induction way with
  | refl => exact ⟨listed, b.isA_self⟩
  | tail _ step ih =>
    obtain ⟨between, kind⟩ := ih
    obtain ⟨member, heir, _⟩ := h.subtype?_eq_some.mp step
    exact ⟨member, h.isA_trans member between (Model.isA_of_ancestor heir) kind⟩

/-- After two choices there is no way back to where the first was made. -/
theorem ReadAs.no_way_back (shared : s.SharedMarks) (listed : b ∈ s.models)
    (first : s.Hands d es b m) (second : s.Hands d es m z) :
    ¬ Relation.ReflTransGen (s.Hands d es) z b := by
  intro back
  obtain ⟨member, heir, mark, marked, tagged⟩ := h.subtype?_eq_some.mp first
  obtain ⟨member', heir', mark', marked', tagged'⟩ := h.subtype?_eq_some.mp second
  obtain ⟨_, different⟩ := (h.heir_iff member).mp heir
  obtain ⟨_, different'⟩ := (h.heir_iff member').mp heir'
  have round : m.name ∈ b.ancestors := by
    obtain ⟨_, kind⟩ := h.isA_of_way member' back
    have above := h.isA_trans listed member' kind (Model.isA_of_ancestor heir')
    exact (h.heir_iff listed).mpr ⟨above, different.symm⟩
  -- the tag that led to the model is looked at again and names the model itself
  have marks : mark = mark' := by
    rcases shared b listed m member heir round with none | none | same
    · rw [none] at marked
      cases marked
    · rw [none] at marked'
      cases marked'
    · rw [marked, marked'] at same
      exact Option.some.inj same
  subst marks
  rw [tagged] at tagged'
  exact different' (Option.some.inj tagged').symm

theorem ReadAs.no_round (shared : s.SharedMarks) (listed : b ∈ s.models) :
    ¬ Relation.TransGen (s.Hands d es) b b := by
  intro round
  obtain ⟨m, first, rest⟩ := Relation.TransGen.head'_iff.mp round
  rcases Relation.ReflTransGen.cases_head rest with rfl | ⟨z, second, back⟩
  · exact h.no_way_back shared listed first first .refl
  · exact h.no_way_back shared listed first second back

/-- No object is handed on for ever. -/
theorem ReadAs.hands_founded (shared : s.SharedMarks) (d : Direction α β) (es : List (String × α)) :
    WellFounded fun m b : { m // m ∈ s.models } => s.Hands d es b m := by
  have finite : Finite { m // m ∈ s.models } := (List.finite_toSet s.models).to_subtype
  have irreflexive : Std.Irrefl
      (Relation.TransGen fun m b : { m // m ∈ s.models } => s.Hands d es b m) := by
    refine ⟨fun b round => ?_⟩
    have turned : Relation.TransGen (s.Hands d es) b b :=
      (Relation.transGen_swap.mp round).lift Subtype.val fun _ _ step => step
    exact h.no_round shared b.2 turned
  have founded := Finite.wellFounded_of_trans_of_irrefl
    (Relation.TransGen fun m b : { m // m ∈ s.models } => s.Hands d es b m)
  exact founded.mono fun _ _ step => .single step

variable (unique : document.KeysUnique)
include unique

theorem ReadAs.settles_model (shared : s.SharedMarks) (d : Direction α β) (v : α)
    (listed : b ∈ s.models) (required : Bool) :
    ∃ n last, s.Settles d v n (s.key b.schema required) last := by
  cases entries : d.entries? v with
  | none => exact ⟨0, _, settles_of_no_entries entries _⟩
  | some es =>
    have founded := h.hands_founded shared d es
    generalize same : (⟨b, listed⟩ : { m // m ∈ s.models }) = start
    induction start using founded.induction generalizing b required with
    | _ start ih =>
      subst same
      have next := h.next?_model (d := d) (v := v) unique listed required
      rw [entries, Option.bind_some] at next
      cases named : s.subtype? d b es with
      | none =>
        rw [named] at next
        exact ⟨0, _, .stay next⟩
      | some m =>
        rw [named] at next
        obtain ⟨member, _⟩ := h.subtype?_eq_some.mp named
        obtain ⟨n, last, rest⟩ := ih ⟨m, member⟩ named member true rfl
        exact ⟨n + 1, last, .choose next rest⟩

/-- Every value stays somewhere. -/
theorem ReadAs.settles (shared : s.SharedMarks) (d : Direction α β) (v : α) (k : Key) :
    ∃ n last, s.Settles d v n k last := by
  cases chosen : (s.plan k).next? d v with
  | none => exact ⟨0, k, .stay chosen⟩
  | some next =>
    obtain ⟨m, member, rfl⟩ := List.mem_map.mp (h.formed.model_of_next? chosen)
    obtain ⟨n, last, rest⟩ := h.settles_model unique shared d v member true
    exact ⟨n + 1, last, .choose chosen rest⟩

theorem ReadAs.resultAt_not_endless (shared : s.SharedMarks) (d : Direction α β) (k : Key) (v : α)
    (model : String) : s.resultAt d k v ≠ .error (.endless model) := by
  induction size : d.size v using Nat.strongRecOn generalizing k v with
  | ind bound ih =>
    subst size
    intro failed
    obtain ⟨n, last, settles⟩ := h.settles unique shared d v k
    rw [h.formed.resultAt_settled settles] at failed
    rcases Plan.guard_error failed with own | failed
    · cases own.1
    · rcases Plan.apply_error failed with own | ⟨l, _, x, smaller, failed⟩
      · cases own.1
      · exact ih _ smaller l x rfl failed

/-- Reading a value directly has a result as soon as there is fuel enough. -/
theorem ReadAs.interpret_ends (shared : s.SharedMarks) (d : Direction α β) (id : Id) (required : Bool)
    (v : α) : ∃ enough, ∀ fuel, enough ≤ fuel →
      s.interpret d fuel id required v = some (s.resultAt d (s.key id required) v) := by
  have limit := h.formed.interpret_limit d id required v
  rcases (transformBy d s.hops (s.key id required) v).outcome_run s.plan with
    ⟨model, endless, _⟩ | ⟨ends, _⟩
  · exact absurd endless (h.resultAt_not_endless unique shared d (s.key id required) v model)
  · exact limit.reached _ ends

/-- The check of tags ends: a value needs no more fuel than its size, times one more than there are
models. -/
theorem ReadAs.checkTags_ends (shared : s.SharedMarks) (v : Json) (fuel : Nat) (path : Pointer)
    (id : Id) (deep : v.size * (s.models.length + 1) < fuel) :
    checkTags s fuel path id v = some (tagFaults s path id v) := by
  induction size : v.size using Nat.strongRecOn generalizing v fuel path id with
  | ind bound ih =>
    subst size
    have parts : ∀ x : Json, x.size < v.size → ∀ less,
        (v.size - 1) * (s.models.length + 1) < less → ∀ path id,
          checkTags s less path id x = some (tagFaults s path id x) := by
      intro x smaller less above path id
      refine ih _ smaller x less path id (Nat.lt_of_le_of_lt ?_ above) rfl
      exact Nat.mul_le_mul_right _ (by omega)
    refine h.checkTags_of_parts unique true (fuel_for_parts v.size_pos deep) ?_ ?_
    · rintro xs next rfl _ x member less above path
      exact parts x (Direction.unmarshal.size_item (v := .array xs) rfl member) less above path next
    · rintro ms shape rfl _
      refine ⟨h.settles unique shared .unmarshal (.object ms) (s.key id true), fun m member next _ less above path => ?_⟩
      exact parts m.2 (Direction.unmarshal.size_entry (v := .object ms) rfl member) less above path next

end Models

/-- A transform that is called later, when more was asked of its spec, gives what it gave. -/
theorem call_later (s : Spec) (uses more : List Use) (side : Side) (d : Direction α β) (id : Id)
    (required : Bool) (v : α) :
    let now := (s.after (uses ++ .obtain side id required :: more)).on side
    Transform.call d { (s.transform ((s.after uses).on side) id required).2 with cache := now } true v =
      s.resultAt d (s.key id required) v := by
  intro now
  obtain ⟨_, settled⟩ := s.settled_after uses side
  obtain ⟨_, later⟩ := s.settled_after (uses ++ .obtain side id required :: more) side
  have extended := s.extends_after uses side id required more
  obtain ⟨after, l, prepared, _, _, _, held, same⟩ := settled.prepare id required
  rw [prepared] at extended
  have obtained : (s.transform ((s.after uses).on side) id required).2 = ⟨l, after, s.hops⟩ := by
    simp only [transform, prepared]
  rw [obtained, later.call_held (held.mono extended) d v, same]

/-- Where models that are ancestors of one another share the mark of their subtypes, every run ends.
A value stays at some model after no more choices than there are models. A transform that somebody
holds never goes round for ever, whenever it is called and even without its spec; with it, it gives
what the plain recursion over value and schema gives with fuel enough. The check of tags needs no more
fuel than the size of the value, times one more than there are models. -/
theorem running_ends (built : build document options formats = .ok s) (unique : document.KeysUnique)
    (shared : s.SharedMarks) :
    (∀ (side : Side) (v : side.In) (k : Key),
      ∃ n last, n ≤ s.models.length ∧ s.Settles side.direction v n k last) ∧
    (∀ (side : Side) (uses more : List Use) (id : Id) (required : Bool) (v : side.In),
      let now := (s.after (uses ++ .obtain side id required :: more)).on side
      let t := { (s.transform ((s.after uses).on side) id required).2 with cache := now }
      (∃ enough, ∀ fuel, enough ≤ fuel →
        s.interpret side.direction fuel id required v = some (t.call side.direction true v)) ∧
      ∀ alive model, t.call side.direction alive v ≠ .error (.endless model)) ∧
    ∀ (path : Pointer) (id : Id) (v : Json) (fuel : Nat), v.size * (s.models.length + 1) < fuel →
      checkTags s fuel path id v = some (tagFaults s path id v) := by
  obtain ⟨naming, order, h⟩ := read_as built
  refine ⟨fun side v k => ?_, fun side uses more id required v => ?_, fun path id v fuel deep => ?_⟩
  · obtain ⟨n, last, settles⟩ := h.settles unique shared side.direction v k
    exact ⟨n, last, settles.le_models h.formed, settles⟩
  · intro now t
    have result := s.call_later uses more side side.direction id required v
    have ends : ∀ model, t.call side.direction true v ≠ .error (.endless model) := by
      intro model
      rw [result]
      exact h.resultAt_not_endless unique shared side.direction _ v model
    refine ⟨?_, fun alive model => ?_⟩
    · rw [result]
      exact h.interpret_ends unique shared side.direction id required v
    · cases alive with
      | true => exact ends model
      | false =>
        intro endless
        rcases (transformBy side.direction t.hops t.link v).run_lost t.cache.follow_lost with
          same | ⟨schema, gone⟩
        · exact ends model (same.symm.trans endless)
        · cases gone.symm.trans endless
  · exact h.checkTags_ends unique shared v fuel path id deep

/-- Eggs and hens, each of which come from the other; and either says by its kind which it is. -/
def henhouse : Json :=
  .object [("definitions", .object [
    ("Egg", .object [("allOf", .array [.object [("$ref", .string "#/definitions/Hen")]]),
      ("discriminator", .string "kind"),
      ("properties", .object [("kind", .object [("type", .string "string")])])]),
    ("Hen", .object [("allOf", .array [.object [("$ref", .string "#/definitions/Egg")]]),
      ("discriminator", .string "kind"),
      ("properties", .object [("laid", .object [("$ref", .string "#/definitions/Egg")])])])])]

theorem running_ends_in_henhouse : ∃ s egg hen, build henhouse .standard .standard = .ok s ∧
    s.model? "Egg" = some egg ∧ s.model? "Hen" = some hen ∧
    egg.name ∈ hen.ancestors ∧ hen.name ∈ egg.ancestors ∧
    (egg.shape.discriminator = some "kind" ∧ hen.shape.discriminator = some "kind") ∧
    henhouse.KeysUnique ∧ s.SharedMarks ∧
    (s.plan (s.key egg.schema true)).next? .unmarshal (.object [("kind", .string "Hen")]) =
      some (s.key hen.schema true) ∧
    (∀ v k, ∃ n last, n ≤ s.models.length ∧ s.Settles .unmarshal v n k last) ∧
    (∀ more v alive model,
      let now := (s.after (.obtain .unmarshal egg.schema true :: more)).on .unmarshal
      let t := { (s.transform ((s.after []).on .unmarshal) egg.schema true).2 with cache := now }
      t.call .unmarshal alive v ≠ .error (.endless model)) ∧
    ∀ v fuel, v.size * (s.models.length + 1) < fuel →
      checkTags s fuel .root egg.schema v = some (tagFaults s .root egg.schema v) := by
  have made : (build henhouse .standard .standard).toOption.any (fun s =>
      (s.model? "Egg").any fun egg => (s.model? "Hen").any fun hen => decide
        ((egg.name ∈ hen.ancestors ∧ hen.name ∈ egg.ancestors ∧
          (egg.shape.discriminator = some "kind" ∧ hen.shape.discriminator = some "kind")) ∧
          (s.plan (s.key egg.schema true)).next? .unmarshal (.object [("kind", .string "Hen")]) =
            some (s.key hen.schema true) ∧
          ∀ a ∈ s.models, ∀ b ∈ s.models, a.name ∈ b.ancestors → b.name ∈ a.ancestors →
            a.shape.discriminator = none ∨ b.shape.discriminator = none ∨
              a.shape.discriminator = b.shape.discriminator)) = true := by
    decide +kernel
  obtain ⟨s, built, made⟩ := Except.exists_of_any made
  obtain ⟨egg, egg_named, made⟩ := (Option.any_eq_true _ _).mp made
  obtain ⟨hen, hen_named, made⟩ := (Option.any_eq_true _ _).mp made
  obtain ⟨⟨above, below, marks⟩, handed, shared⟩ := of_decide_eq_true made
  have unique : henhouse.KeysUnique := by
    simp [henhouse, Json.KeysUnique, Json.KeysUniqueItems, Json.KeysUniqueMembers, Entries.keys]
  obtain ⟨settles, ends, checks⟩ := running_ends built unique shared
  exact ⟨s, egg, hen, built, egg_named, hen_named, above, below, marks, unique, shared, handed,
    settles .unmarshal, fun more v => (ends .unmarshal [] more egg.schema true v).2,
    checks .root egg.schema⟩

/-- The same, but each is known by a property of its own. -/
def henhouseOfTwoMarks : Json :=
  .object [("definitions", .object [
    ("Egg", .object [("allOf", .array [.object [("$ref", .string "#/definitions/Hen")]]),
      ("discriminator", .string "laid")]),
    ("Hen", .object [("allOf", .array [.object [("$ref", .string "#/definitions/Egg")]]),
      ("discriminator", .string "hatched")])])]

/-- What is an egg by one mark and a hen by the other is handed from each to the other. -/
example : (build henhouseOfTwoMarks .standard .standard).toOption.any (fun s =>
    (s.model? "Egg").any fun egg => (s.model? "Hen").any fun hen =>
      let v : Json := .object [("laid", .string "Hen"), ("hatched", .string "Egg")]
      decide ((s.plan (s.key egg.schema true)).next? .unmarshal v = some (s.key hen.schema true) ∧
        (s.plan (s.key hen.schema true)).next? .unmarshal v = some (s.key egg.schema true))) = true := by
  decide +kernel

end Spec
end ApiPayload
