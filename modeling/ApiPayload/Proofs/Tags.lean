import ApiPayload.Proofs.Descent
import ApiPayload.Proofs.Visits

/-
Tags as they are checked and as they are followed. The check of a payload's tags comes by the same
objects as the transform that reads the payload, hands them to the same subtypes, and finds fault with
the tags that the plan of an object can make nothing of.
-/
namespace ApiPayload

open Schema

/-- A tag that names neither the plan's own schema nor one of its subtypes. -/
def ObjectPlan.stray? {link : Type} (o : ObjectPlan link) (es : List (String × Json)) :
    Option (String × Json) := do
  let mark ← o.discriminator
  let tag ← Entries.get? mark es
  if tag.string?.any fun name => name = o.expected || Entries.contains name o.subtypes then none
  else some (mark, tag)

theorem ObjectPlan.stray?_eq_none {link : Type} {o : ObjectPlan link} {es : List (String × Json)} :
    o.stray? es = none ↔ ∀ mark tag, o.discriminator = some mark → Entries.get? mark es = some tag →
      ∃ name, tag = .string name ∧ (name = o.expected ∨ Entries.contains name o.subtypes = true) := by
  constructor
  · intro none mark tag marked present
    simp only [stray?, marked, present, Option.bind_eq_bind, Option.bind_some] at none
    split at none
    · rename_i known
      rw [Option.any_eq_true] at known
      obtain ⟨name, text, known⟩ := known
      exact ⟨name, Json.string?_eq_some.mp text, by simpa using known⟩
    · cases none
  · intro fits
    unfold stray?
    cases marked : o.discriminator with
    | none => rfl
    | some mark =>
      cases present : Entries.get? mark es with
      | none => simp [present]
      | some tag =>
        obtain ⟨name, rfl, known⟩ := fits mark tag marked present
        simp [present, Json.string?, known]

/-- What is wrong with the tag of an object that was visited, by the plan of its schema. -/
def Spec.stray? (s : Spec) (u : Visit) : Option Validation.TagFault :=
  match (s.plan ⟨u.node, true⟩).core with
  | .object o => (o.stray? u.members).map fun (mark, tag) => ⟨u.path.child mark, tag, o.expected⟩
  | _ => none

namespace Validation

/-- The model that tags end at, with what is wrong with its own tag; none if they do not end in so many
steps. -/
def settleTag (s : Spec) (ms : List (String × Json)) :
    Nat → Model → Option (Model × Option (String × Json))
  | fuel, base =>
    match tagOf s base ms with
    | .absent | .own => some (base, none)
    | .unknown name tag => some (base, some (name, tag))
    | .sub m =>
      match fuel with
      | 0 => none
      | fuel + 1 => settleTag s ms fuel m

/-- The properties to go on with, and the fault of an object's own tag. Where tags never end there are
neither, and no check of the object ends. -/
def objectTag (s : Spec) (shape : Shape Id) (ms : List (String × Json)) (path : Pointer) :
    List (String × Id) × List TagFault :=
  match shape.model.bind s.model? with
  | none => (shape.properties, [])
  | some base =>
    match settleTag s ms s.models.length base with
    | none => ([], [])
    | some (m, none) => (m.shape.properties, [])
    | some (m, some (name, tag)) => (m.shape.properties, [⟨path.child name, tag, m.name⟩])

mutual
/-- The faults of a payload by recursion on the payload alone: those that a check finds if it ends. -/
def tagFaults (s : Spec) (path : Pointer) (id : Id) : Json → List TagFault
  | .array xs =>
    match (s.node (s.concrete id)).kind with
    | .array (some items) => tagFaultsItems s path items 0 xs
    | _ => []
  | .object ms =>
    match (s.node (s.concrete id)).kind with
    | .object shape =>
      let (properties, own) := objectTag s shape ms path
      own ++ tagFaultsMembers s path properties ms
    | _ => []
  | _ => []

def tagFaultsItems (s : Spec) (path : Pointer) (items : Id) (i : Nat) : List Json → List TagFault
  | [] => []
  | x :: xs => tagFaults s (path.item i) items x ++ tagFaultsItems s path items (i + 1) xs

def tagFaultsMembers (s : Spec) (path : Pointer) (properties : List (String × Id)) :
    List (String × Json) → List TagFault
  | [] => []
  | (k, x) :: ms =>
    (match Entries.get? k properties with
      | some id => tagFaults s (path.child k) id x
      | none => []) ++ tagFaultsMembers s path properties ms
end

/-- The objects that one object is checked as, down to the model that its tags end at, and the
properties to go on with. Each subtype is entered by its schema. -/
def objectVisits (s : Spec) (path : Pointer) (ms : List (String × Json)) :
    Nat → Id → List Visit × List (String × Id)
  | fuel, id =>
    match (s.node (s.concrete id)).kind with
    | .object shape =>
      match shape.model.bind s.model? with
      | none => ([⟨s.concrete id, path, ms, none⟩], shape.properties)
      | some base =>
        match tagOf s base ms with
        | .sub m =>
          let (below, properties) := match fuel with
            | 0 => ([], [])
            | fuel + 1 => objectVisits s path ms fuel m.schema
          (⟨s.concrete id, path, ms, some (s.concrete m.schema)⟩ :: below, properties)
        | _ => ([⟨s.concrete id, path, ms, none⟩], base.shape.properties)
    | _ => ([], [])

mutual
/-- The objects that the check of a payload comes by, in the order of the check. -/
def tagVisits (s : Spec) (path : Pointer) (id : Id) : Json → List Visit
  | .array xs =>
    match (s.node (s.concrete id)).kind with
    | .array (some items) => tagVisitsItems s path items 0 xs
    | _ => []
  | .object ms =>
    match (s.node (s.concrete id)).kind with
    | .object _ =>
      let (own, properties) := objectVisits s path ms s.models.length id
      own ++ tagVisitsMembers s path properties ms
    | _ => []
  | _ => []

def tagVisitsItems (s : Spec) (path : Pointer) (items : Id) (i : Nat) : List Json → List Visit
  | [] => []
  | x :: xs => tagVisits s (path.item i) items x ++ tagVisitsItems s path items (i + 1) xs

def tagVisitsMembers (s : Spec) (path : Pointer) (properties : List (String × Id)) :
    List (String × Json) → List Visit
  | [] => []
  | (k, x) :: ms =>
    (match Entries.get? k properties with
      | some id => tagVisits s (path.child k) id x
      | none => []) ++ tagVisitsMembers s path properties ms
end

end Validation

namespace Spec

open Validation

variable {document : Json} {options : Options} {formats : Format.Registry} {s : Spec}
  {naming : Naming} {order : List Pointer} {k last : Key} {b m : Model} {shape : Shape Id} {id : Id}
  {path : Pointer} {ms : List (String × Json)}

section Objects

theorem core_free (kind : (s.node k.schema).kind = .object shape)
    (free : shape.model.bind s.model? = none) :
    (s.plan k).core = .object (s.freePlan (s.node k.schema).label shape) ∨
      ∃ name, (s.plan k).core = .unknownModel name := by
  cases model : shape.model with
  | none => exact .inl (by simp only [plan, kind, objectCore, model])
  | some name =>
    rw [model, Option.bind_some] at free
    exact .inr ⟨name, by simp only [plan, kind, objectCore, model, free]⟩

theorem core_bound (kind : (s.node k.schema).kind = .object shape)
    (bound : shape.model.bind s.model? = some b) : (s.plan k).core = .object (s.modelPlan b) := by
  obtain ⟨name, model, known⟩ := Option.bind_eq_some_iff.mp bound
  simp only [plan, kind, objectCore, model, known]

theorem eq_freePlan {o : ObjectPlan Key} (kind : (s.node k.schema).kind = .object shape)
    (free : shape.model.bind s.model? = none) (core : (s.plan k).core = .object o) :
    o = s.freePlan (s.node k.schema).label shape := by
  rcases core_free kind free with own | ⟨name, unknown⟩
  · exact Core.object.inj (core.symm.trans own)
  · rw [core] at unknown
    cases unknown

theorem eq_modelPlan {o : ObjectPlan Key} (kind : (s.node k.schema).kind = .object shape)
    (bound : shape.model.bind s.model? = some b) (core : (s.plan k).core = .object o) :
    o = s.modelPlan b :=
  Core.object.inj (core.symm.trans (core_bound kind bound))

theorem listed_of_bound (bound : shape.model.bind s.model? = some b) : b ∈ s.models := by
  obtain ⟨name, _, known⟩ := Option.bind_eq_some_iff.mp bound
  exact (of_model? known).1

theorem stray?_free (path : Pointer) (ms : List (String × Json)) (next : Option Id)
    (kind : (s.node (s.concrete id)).kind = .object shape)
    (free : shape.model.bind s.model? = none) :
    s.stray? ⟨s.concrete id, path, ms, next⟩ = none := by
  unfold Spec.stray?
  rcases core_free (k := ⟨s.concrete id, true⟩) kind free with core | ⟨name, core⟩
  · rw [core]
    rfl
  · rw [core]

end Objects

section Tag
variable (h : s.ReadAs document naming order)
include h

theorem ReadAs.choice_tag : (s.modelPlan b).choice .unmarshal ms = match tagOf s b ms with
    | .sub m => some (s.key m.schema true)
    | _ => none := by
  have choice : (s.modelPlan b).choice .unmarshal ms =
      (s.subtype? .unmarshal b ms).map fun m => s.key m.schema true :=
    s.choice_readPlan .unmarshal ⟨b.name, b.shape, some b⟩ ms
  rw [choice]
  cases named : s.subtype? .unmarshal b ms with
  | some m => rw [h.tagOf_eq_sub.mpr named, Option.map_some]
  | none =>
    split
    · rename_i m tagged
      rw [h.tagOf_eq_sub.mp tagged] at named
      cases named
    · rfl

/-- A plan knows the names of the model itself and of the models below it. -/
theorem ReadAs.knows_name (listed : b ∈ s.models) (name : String) :
    (name = b.name || Entries.contains name (s.subtypeKeys b.name)) =
      (s.model? name).any (Model.isA · b.name) := by
  rw [Bool.eq_iff_iff, Bool.or_eq_true, decide_eq_true_eq, Option.any_eq_true, Entries.contains,
    get?_subtypeKeys, Option.isSome_map]
  constructor
  · rintro (rfl | below)
    · exact ⟨b, h.model?_of_mem listed, b.isA_self⟩
    · obtain ⟨m, found⟩ := Option.isSome_iff_exists.mp below
      obtain ⟨member, rfl, heir⟩ := heir_of_find found
      exact ⟨m, h.model?_of_mem member, Model.isA_of_ancestor heir⟩
  · rintro ⟨m, known, kind⟩
    obtain ⟨member, named⟩ := of_model? known
    by_cases own : m.name = b.name
    · exact .inl (named.symm.trans own)
    · have heir := (h.heir_iff member).mpr ⟨kind, own⟩
      exact .inr (List.find?_isSome.mpr ⟨m, member, decide_eq_true ⟨named, heir⟩⟩)

/-- A plan can make something of a tag that is accepted, and of no other. -/
theorem ReadAs.stray_tag (listed : b ∈ s.models) :
    (s.modelPlan b).stray? ms = match tagOf s b ms with
      | .unknown mark tag => some (mark, tag)
      | _ => none := by
  have own : (s.modelPlan b).discriminator = b.shape.discriminator := rfl
  unfold ObjectPlan.stray? tagOf
  rw [own]
  cases marked : b.shape.discriminator with
  | none => rfl
  | some mark =>
    have subtypes : (s.modelPlan b).subtypes = s.subtypeKeys b.name := by simp [modelPlan, marked]
    have expected : (s.modelPlan b).expected = b.name := rfl
    cases present : Entries.get? mark ms with
    | none => simp [present]
    | some tag =>
      simp only [Option.bind_eq_bind, Option.bind_some, present, subtypes, expected,
        h.knows_name listed]
      cases text : tag.string? with
      | none => rfl
      | some name =>
        simp only [Option.any_some, Option.bind_some]
        rcases Option.eq_none_or_eq_some (s.model? name) with known | ⟨m, known⟩
        · simp [known]
        · cases kind : m.isA b.name with
          | false => simp [known, kind, Option.filter_some]
          | true => by_cases self : m.name = b.name <;> simp [known, kind, self, Option.filter_some]

end Tag

section Check
variable (h : s.ReadAs document naming order)
include h

theorem ReadAs.next?_bound (kind : (s.node k.schema).kind = .object shape)
    (bound : shape.model.bind s.model? = some b) :
    (s.plan k).next? .unmarshal (.object ms) = match tagOf s b ms with
      | .sub m => some (s.key m.schema true)
      | _ => none := by
  rw [← h.choice_tag, next?_object (core_bound kind bound) rfl]

theorem ReadAs.stray?_bound (path : Pointer) (ms : List (String × Json)) (next : Option Id)
    (kind : (s.node (s.concrete id)).kind = .object shape)
    (bound : shape.model.bind s.model? = some b) :
    s.stray? ⟨s.concrete id, path, ms, next⟩ = match tagOf s b ms with
      | .unknown mark tag => some ⟨path.child mark, tag, b.name⟩
      | _ => none := by
  have core : (s.plan ⟨s.concrete id, true⟩).core = .object (s.modelPlan b) := core_bound kind bound
  simp only [Spec.stray?, core, h.stray_tag (listed_of_bound bound)]
  cases tagOf s b ms <;> rfl

variable (unique : document.KeysUnique)
include unique

/-- The schema of a subtype that a tag leads to is bound to that subtype. -/
theorem ReadAs.bound_sub (tagged : tagOf s b ms = .sub m) :
    (s.node (s.concrete m.schema)).kind = .object m.shape ∧
      m.shape.model.bind s.model? = some m := by
  obtain ⟨member, _⟩ := h.subtype?_eq_some.mp (h.tagOf_eq_sub.mp tagged)
  rw [h.concrete_model member, h.bound unique member]
  exact ⟨h.formed.modelNode m member, h.model?_of_mem member⟩

/-- Following tags from model to model comes to the same as following them from schema to schema. -/
theorem ReadAs.settleTag_eq (path : Pointer) (ms : List (String × Json)) (fuel : Nat)
    (kind : (s.node (s.concrete id)).kind = .object shape)
    (bound : shape.model.bind s.model? = some b) :
    (objectVisits s path ms fuel id).2 =
        ((settleTag s ms fuel b).map (·.1.shape.properties)).getD [] ∧
      (objectVisits s path ms fuel id).1.filterMap s.stray? =
        ((settleTag s ms fuel b).bind fun r => r.2.map fun e =>
          (⟨path.child e.1, e.2, r.1.name⟩ : TagFault)).toList := by
  induction fuel generalizing id shape b with
  | zero =>
    have fault := fun next => h.stray?_bound path ms next kind bound
    unfold objectVisits settleTag
    cases tagged : tagOf s b ms with
    | _ =>
      rw [tagged] at fault
      simp only [kind, bound, tagged, List.filterMap_cons, fault, List.filterMap_nil]
      exact ⟨rfl, rfl⟩
  | succ fuel ih =>
    have fault := fun next => h.stray?_bound path ms next kind bound
    unfold objectVisits settleTag
    cases tagged : tagOf s b ms with
    | sub m =>
      obtain ⟨kind', bound'⟩ := h.bound_sub unique tagged
      rw [tagged] at fault
      simp only [kind, bound, tagged, List.filterMap_cons, fault]
      exact ih kind' bound'
    | _ =>
      rw [tagged] at fault
      simp only [kind, bound, tagged, List.filterMap_cons, fault, List.filterMap_nil]
      exact ⟨rfl, rfl⟩

theorem ReadAs.objectTag_eq (kind : (s.node (s.concrete id)).kind = .object shape) :
    objectTag s shape ms path = ((objectVisits s path ms s.models.length id).2,
      (objectVisits s path ms s.models.length id).1.filterMap s.stray?) := by
  unfold objectTag
  cases bound : shape.model.bind s.model? with
  | none =>
    have fault := stray?_free path ms none kind bound
    unfold objectVisits
    simp only [kind, bound, List.filterMap_cons, fault, List.filterMap_nil]
  | some b =>
    obtain ⟨properties, faults⟩ := h.settleTag_eq unique path ms s.models.length kind bound
    rw [properties, faults]
    dsimp only
    split
    · rename_i none
      rw [none]
      rfl
    · rename_i m settled
      rw [settled]
      rfl
    · rename_i m mark tag settled
      rw [settled]
      rfl

end Check

mutual
/-- The faults of a payload are those of the objects that its check comes by. -/
theorem ReadAs.tagFaults_eq (h : s.ReadAs document naming order) (unique : document.KeysUnique)
    (path : Pointer) (id : Id) : ∀ v : Json,
    tagFaults s path id v = (tagVisits s path id v).filterMap s.stray?
  | .null | .bool _ | .number _ | .string _ => rfl
  | .array xs => by
    unfold tagFaults tagVisits
    cases kind : (s.node (s.concrete id)).kind with
    | array items =>
      cases items with
      | none => rfl
      | some items => exact h.tagFaultsItems_eq unique path items 0 xs
    | _ => rfl
  | .object ms => by
    unfold tagFaults tagVisits
    cases kind : (s.node (s.concrete id)).kind with
    | object shape =>
      simp only [h.objectTag_eq unique kind, List.filterMap_append]
      exact congrArg _ (h.tagFaultsMembers_eq unique path _ ms)
    | _ => rfl

theorem ReadAs.tagFaultsItems_eq (h : s.ReadAs document naming order) (unique : document.KeysUnique)
    (path : Pointer) (items : Id) (i : Nat) : ∀ xs : List Json,
    tagFaultsItems s path items i xs = (tagVisitsItems s path items i xs).filterMap s.stray?
  | [] => rfl
  | x :: xs => by
    rw [tagFaultsItems, tagVisitsItems, List.filterMap_append,
      h.tagFaults_eq unique (path.item i) items x,
      h.tagFaultsItems_eq unique path items (i + 1) xs]

theorem ReadAs.tagFaultsMembers_eq (h : s.ReadAs document naming order)
    (unique : document.KeysUnique) (path : Pointer) (properties : List (String × Id)) :
    ∀ ms : List (String × Json), tagFaultsMembers s path properties ms =
      (tagVisitsMembers s path properties ms).filterMap s.stray?
  | [] => rfl
  | (key, x) :: ms => by
    rw [tagFaultsMembers, tagVisitsMembers, List.filterMap_append,
      h.tagFaultsMembers_eq unique path properties ms]
    cases Entries.get? key properties with
    | none => rfl
    | some id => exact congrArg (· ++ _) (h.tagFaults_eq unique (path.child key) id x)
end

section Agreement

/-- The check hands an object on exactly where the plan of its schema does, and to the same. -/
def Planned (s : Spec) (u : Visit) : Prop :=
  u.next = ((s.plan ⟨u.node, true⟩).next? .unmarshal (.object u.members)).map (·.schema)

theorem planned_free (kind : (s.node (s.concrete id)).kind = .object shape)
    (free : shape.model.bind s.model? = none) : s.Planned ⟨s.concrete id, path, ms, none⟩ := by
  have none : (s.plan ⟨s.concrete id, true⟩).next? .unmarshal (.object ms) = none := by
    rcases core_free (k := ⟨s.concrete id, true⟩) kind free with core | ⟨name, core⟩
    · exact next?_object core rfl
    · simp only [Plan.next?, core]
  rw [Planned, none]
  rfl

theorem ReadAs.planned_bound (h : s.ReadAs document naming order)
    (kind : (s.node (s.concrete id)).kind = .object shape)
    (bound : shape.model.bind s.model? = some b) :
    s.Planned ⟨s.concrete id, path, ms, match tagOf s b ms with
      | .sub m => some (s.concrete m.schema)
      | _ => none⟩ := by
  rw [Planned, h.next?_bound (k := ⟨s.concrete id, true⟩) kind bound]
  cases tagOf s b ms <;> rfl

theorem mem_objectVisits {u : Visit} {fuel : Nat}
    (kind : (s.node (s.concrete id)).kind = .object shape)
    (bound : shape.model.bind s.model? = some b)
    (member : u ∈ (objectVisits s path ms fuel id).1) :
    u = ⟨s.concrete id, path, ms, match tagOf s b ms with
      | .sub m => some (s.concrete m.schema)
      | _ => none⟩ ∨
    ∃ fewer sub, fuel = fewer + 1 ∧ u ∈ (objectVisits s path ms fewer sub).1 := by
  unfold objectVisits at member
  simp only [kind, bound] at member
  cases tagged : tagOf s b ms with
  | sub m =>
    simp only [tagged] at member
    rcases List.mem_cons.mp member with here | below
    · exact .inl here
    · cases fuel with
      | zero => cases below
      | succ fuel => exact .inr ⟨fuel, m.schema, rfl, below⟩
  | _ =>
    simp only [tagged] at member
    exact .inl (List.mem_singleton.mp member)

theorem ReadAs.planned_object (h : s.ReadAs document naming order) (path : Pointer)
    (ms : List (String × Json)) (fuel : Nat) (id : Id) :
    ∀ u ∈ (objectVisits s path ms fuel id).1, s.Planned u := by
  induction fuel using Nat.strongRecOn generalizing id with
  | ind fuel ih =>
    intro u member
    cases kind : (s.node (s.concrete id)).kind with
    | object shape =>
      cases bound : shape.model.bind s.model? with
      | none =>
        unfold objectVisits at member
        simp only [kind, bound] at member
        obtain rfl := List.mem_singleton.mp member
        exact planned_free kind bound
      | some b =>
        rcases mem_objectVisits kind bound member with rfl | ⟨fewer, sub, rfl, below⟩
        · exact h.planned_bound kind bound
        · exact ih fewer (Nat.lt_succ_self fewer) sub u below
    | _ =>
      unfold objectVisits at member
      simp only [kind] at member
      cases member

mutual
theorem ReadAs.planned (h : s.ReadAs document naming order) (path : Pointer) (id : Id) :
    ∀ v : Json, ∀ u ∈ tagVisits s path id v, s.Planned u
  | .null | .bool _ | .number _ | .string _ => fun _ none => nomatch none
  | .array xs => by
    intro u member
    unfold tagVisits at member
    split at member
    · rename_i items _
      exact h.planned_items path items 0 xs u member
    · cases member
  | .object ms => by
    intro u member
    unfold tagVisits at member
    split at member
    · rcases List.mem_append.mp member with own | below
      · exact h.planned_object path ms s.models.length id u own
      · exact h.planned_members path _ ms u below
    · cases member

theorem ReadAs.planned_items (h : s.ReadAs document naming order) (path : Pointer) (items : Id)
    (i : Nat) : ∀ xs : List Json, ∀ u ∈ tagVisitsItems s path items i xs, s.Planned u
  | [] => fun _ none => nomatch none
  | x :: xs => by
    intro u member
    rcases List.mem_append.mp member with first | later
    · exact h.planned (path.item i) items x u first
    · exact h.planned_items path items (i + 1) xs u later

theorem ReadAs.planned_members (h : s.ReadAs document naming order) (path : Pointer)
    (properties : List (String × Id)) : ∀ ms : List (String × Json),
    ∀ u ∈ tagVisitsMembers s path properties ms, s.Planned u
  | [] => fun _ none => nomatch none
  | (key, x) :: ms => by
    intro u member
    rcases List.mem_append.mp member with first | later
    · split at first
      · rename_i id _
        exact h.planned (path.child key) id x u first
      · cases first
    · exact h.planned_members path properties ms u later
end

theorem model_of_subtype {o : ObjectPlan Key} {name : String} {l : Key}
    (core : (s.plan k).core = .object o) (found : Entries.get? name o.subtypes = some l) :
    ∃ m ∈ s.models, m.name = name ∧ l = s.key m.schema true := by
  obtain ⟨shape, _, rfl | ⟨b, _, rfl⟩⟩ := core_object core
  · cases found
  · have subtypes : Entries.get? name (s.subtypeKeys b.name) = some l := by
      by_cases marked : b.shape.discriminator.isSome = true
      · simpa only [modelPlan, marked, if_true] using found
      · simp [modelPlan, marked, Entries.get?] at found
    rw [get?_subtypeKeys] at subtypes
    obtain ⟨m, listed, rfl⟩ := Option.map_eq_some_iff.mp subtypes
    obtain ⟨member, named, _⟩ := heir_of_find listed
    exact ⟨m, member, named, rfl⟩

/-- Nothing is wrong with the tag of an object if there is none, if it names the schema itself or if
it names the subtype that the object is handed to. -/
theorem ReadAs.stray?_eq_none (h : s.ReadAs document naming order) {u : Visit}
    (planned : s.Planned u) : s.stray? u = none ↔
      ∀ o mark tag, (s.plan ⟨u.node, true⟩).core = .object o → o.discriminator = some mark →
        Entries.get? mark u.members = some tag → tag = .string o.expected ∨
          ∃ m ∈ s.models, tag = .string m.name ∧ u.next = some m.schema := by
  unfold Spec.stray?
  cases core : (s.plan ⟨u.node, true⟩).core with
  | object o =>
    have next : ∀ mark name, o.discriminator = some mark →
        Entries.get? mark u.members = some (.string name) →
        u.next = (Entries.get? name o.subtypes).map (·.schema) := by
      intro mark name marked present
      rw [planned, next?_object core rfl, ObjectPlan.choice_eq, marked, Option.bind_some, present]
      rfl
    rw [Option.map_eq_none_iff, ObjectPlan.stray?_eq_none]
    constructor
    · rintro fits o' mark tag ⟨rfl⟩ marked present
      obtain ⟨name, rfl, rfl | below⟩ := fits mark tag marked present
      · exact .inl rfl
      · obtain ⟨l, found⟩ := Option.isSome_iff_exists.mp below
        obtain ⟨m, member, named, rfl⟩ := model_of_subtype core found
        refine .inr ⟨m, member, by rw [named], ?_⟩
        rw [next mark name marked present, found, Option.map_some, key, h.concrete_model member]
    · intro fits mark tag marked present
      rcases fits o mark tag rfl marked present with rfl | ⟨m, member, rfl, handed⟩
      · exact ⟨o.expected, rfl, .inl rfl⟩
      · rw [next mark m.name marked present] at handed
        obtain ⟨l, found, _⟩ := Option.map_eq_some_iff.mp handed
        exact ⟨m.name, rfl, .inr (by rw [Entries.contains, found]; rfl)⟩
  | _ => simp

end Agreement

end Spec
end ApiPayload
