import ApiPayload.Proofs.TagChecks

/-
Readings and the check of their tags. A reading on record and the check of the same payload come by
the same objects, since both follow a tag by the name of the model and go on with its properties.
-/
namespace ApiPayload

open Schema

namespace Plan

variable {α β link : Type} {m : Type → Type} [Monad m] [MonadExceptOf TransformError m]
  {d : Direction α β} {v : α} {p : Plan link} {whole : m β}

theorem guard_unruled (unruled : d.isNull v = true → p.onNull = none) :
    p.guard d v whole = whole := by
  unfold guard
  split
  · rename_i null
    rw [unruled null]
  · rfl

theorem guard_default {j : Json} (null : d.isNull v = true) (rule : p.onNull = some (.default j)) :
    p.guard d v whole = pure (d.ofDefault j) := by
  simp only [guard, null, if_true, rule]

theorem guard_keep (null : d.isNull v = true) (rule : p.onNull = some .keep) :
    p.guard d v whole = pure d.null := by
  simp only [guard, null, if_true, rule]

end Plan

namespace Spec

open Validation

variable {document : Json} {options : Options} {formats : Format.Registry} {s : Spec}
  {naming : Naming} {order : List Pointer} {k last : Key} {id : Id} {path : Pointer}
  {ms : List (String × Json)}

section Run
variable {o : ObjectPlan Key} {v : Json} {n : Nat}
  (h : s.ReadAs document naming order)

theorem runs_record (path : Pointer) (ms : List (String × Json))
    (core : (s.plan k).core = .object o) :
    Runs (s.record (path, .object ms) k) ()
      [⟨k.schema, path, ms, ((s.plan k).next? .unmarshal (.object ms)).map (·.schema)⟩] := by
  intro log
  simp only [record, core]
  rfl

theorem runs_unrecorded (path : Pointer) (other : ∀ o, (s.plan k).core ≠ .object o) :
    Runs (s.record (path, v) k) () [] := by
  unfold record
  split
  · rename_i o es core _
    exact absurd core (other o)
  · exact runs_pure ()

theorem runs_stay {visits : List Visit} (stays : (s.plan k).next? .unmarshal v = none)
    (recorded : Runs (s.record (path, v) k) () visits) (fuel : Nat) :
    Runs (s.settleRecorded (path, v) fuel k) (s.plan k) visits := by
  unfold settleRecorded
  simp only [stays]
  exact recorded.map fun _ => s.plan k

include h

theorem ReadAs.visits_stay (path : Pointer) (start : k.schema = s.concrete id)
    (core : (s.plan k).core = .object o)
    (stays : (s.plan k).next? .unmarshal (.object ms) = none) (fuel : Nat) :
    ∃ shape, objectVisits s path ms fuel id = ([⟨k.schema, path, ms, none⟩], shape.properties) ∧
      o.properties = s.propertyKeys shape := by
  obtain ⟨shape, kind, _⟩ := core_object core
  have here : (s.node (s.concrete id)).kind = .object shape := start ▸ kind
  unfold objectVisits
  simp only [here, start]
  cases bound : shape.model.bind s.model? with
  | none =>
    obtain rfl := eq_freePlan kind bound core
    exact ⟨shape, rfl, rfl⟩
  | some b =>
    obtain rfl := eq_modelPlan kind bound core
    rw [h.next?_bound kind bound] at stays
    refine ⟨b.shape, ?_, rfl⟩
    cases tagged : tagOf s b ms with
    | sub m =>
      rw [tagged] at stays
      cases stays
    | _ => simp only [tagged]

theorem ReadAs.visits_choose {next : Key} (path : Pointer) (start : k.schema = s.concrete id)
    (chosen : (s.plan k).next? .unmarshal (.object ms) = some next) (fuel : Nat) :
    ∃ m : Model, next = s.key m.schema true ∧ objectVisits s path ms (fuel + 1) id =
      (⟨k.schema, path, ms, some next.schema⟩ :: (objectVisits s path ms fuel m.schema).1,
        (objectVisits s path ms fuel m.schema).2) := by
  obtain ⟨o, es, core, _, choice⟩ := object_of_next? chosen
  obtain ⟨shape, kind, _⟩ := core_object core
  have here : (s.node (s.concrete id)).kind = .object shape := start ▸ kind
  conv in objectVisits s path ms (fuel + 1) id => unfold objectVisits
  simp only [here, start]
  cases bound : shape.model.bind s.model? with
  | none =>
    obtain rfl := eq_freePlan kind bound core
    cases choice
  | some b =>
    rw [h.next?_bound kind bound] at chosen
    cases tagged : tagOf s b ms with
    | sub m =>
      rw [tagged] at chosen
      cases chosen
      exact ⟨m, rfl, by simp only [tagged]; rfl⟩
    | _ =>
      rw [tagged] at chosen
      cases chosen

/-- Tags are followed by way of the same objects, and to properties of the same schema. -/
theorem ReadAs.runs_settle (path : Pointer) (settles : s.Settles .unmarshal (.object ms) n k last)
    (core : (s.plan last).core = .object o) (start : k.schema = s.concrete id) (fuel fuel' : Nat)
    (near : n ≤ fuel) (near' : n ≤ fuel') :
    Runs (s.settleRecorded (path, .object ms) fuel k) (s.plan last)
        (objectVisits s path ms fuel' id).1 ∧
      ∃ shape, (objectVisits s path ms fuel' id).2 = shape.properties ∧
        o.properties = s.propertyKeys shape := by
  -- along the choices, with fuel left on either side for all of them
  induction settles generalizing id fuel fuel' with
  | @stay k stays =>
    obtain ⟨shape, visits, properties⟩ := h.visits_stay path start core stays fuel'
    have recorded := runs_record path ms core
    rw [stays] at recorded
    rw [visits]
    exact ⟨runs_stay stays recorded fuel, shape, rfl, properties⟩
  | @choose n k next last chosen rest ih =>
    obtain ⟨fuel, rfl⟩ := Nat.exists_eq_add_of_le' (Nat.lt_of_lt_of_le (Nat.succ_pos n) near)
    obtain ⟨fuel', rfl⟩ := Nat.exists_eq_add_of_le' (Nat.lt_of_lt_of_le (Nat.succ_pos n) near')
    obtain ⟨m, rfl, visits⟩ := h.visits_choose path start chosen fuel'
    obtain ⟨own, _, here, _⟩ := object_of_next? chosen
    have recorded := runs_record path ms here
    rw [chosen] at recorded
    obtain ⟨runs, properties⟩ := ih core rfl fuel fuel' (by omega) (by omega)
    rw [visits]
    refine ⟨?_, properties⟩
    unfold settleRecorded
    simp only [chosen]
    exact recorded.bind runs

variable (unique : document.KeysUnique)
include unique

/-- Tags lead to objects only. -/
theorem ReadAs.stays_at (settles : s.Settles .unmarshal v n k last)
    (other : ∀ o, (s.plan last).core ≠ .object o) :
    k = last ∧ (s.plan k).next? .unmarshal v = none := by
  cases settles with
  | stay stays => exact ⟨rfl, stays⟩
  | choose chosen rest =>
    have model := rest.last_model h.formed (h.formed.model_of_next? chosen)
    obtain ⟨m, member, rfl⟩ := List.mem_map.mp model
    exact absurd (h.core_model unique member true) (other _)

end Run

section Parts
variable {v : Json}

theorem tagVisitsItems_eq (s : Spec) (path : Pointer) (items : Id) (i : Nat) (xs : List Json) :
    tagVisitsItems s path items i xs =
      (itemsAt path i xs).flatMap fun a => tagVisits s a.1 items a.2 := by
  induction xs generalizing i with
  | nil => rfl
  | cons x rest ih => rw [tagVisitsItems, itemsAt, List.flatMap_cons, ih]

def entryVisits (s : Spec) (properties : List (String × Id)) (e : String × Pointer × Json) :
    List Visit :=
  match Entries.get? e.1 properties with
  | some id => tagVisits s e.2.1 id e.2.2
  | none => []

theorem tagVisitsMembers_eq (s : Spec) (path : Pointer) (properties : List (String × Id))
    (ms : List (String × Json)) : tagVisitsMembers s path properties ms =
      (entriesAt path ms).flatMap (s.entryVisits properties) := by
  induction ms with
  | nil => rfl
  | cons e rest ih =>
    rw [tagVisitsMembers, ih]
    rfl

theorem tagVisits_of_plain (plain : (s.plan k).core = .pass ∨ ∃ c, (s.plan k).core = .convert c)
    (start : k.schema = s.concrete id) : tagVisits s path id v = [] := by
  have noArray : ∀ items, (s.node (s.concrete id)).kind ≠ .array (some items) := by
    intro items kind
    simp only [plan, start, kind] at plain
    rcases plain with core | ⟨c, core⟩ <;> cases core
  have noObject : ∀ shape, (s.node (s.concrete id)).kind ≠ .object shape := by
    intro shape kind
    simp only [plan, start, kind, objectCore] at plain
    split at plain
    · rcases plain with core | ⟨c, core⟩ <;> cases core
    · split at plain <;> rcases plain with core | ⟨c, core⟩ <;> cases core
  cases v with
  | array xs =>
    unfold tagVisits
    split
    · rename_i items kind
      exact absurd kind (noArray items)
    · rfl
  | object ms =>
    unfold tagVisits
    split
    · rename_i shape kind
      exact absurd kind (noObject shape)
    · rfl
  | _ => rfl

theorem items_of_core {schema : String} {item : Key} (core : (s.plan k).core = .list schema item) :
    ∃ items, (s.node k.schema).kind = .array (some items) ∧ item = s.key items true := by
  unfold plan at core
  cases kind : (s.node k.schema).kind with
  | primitive type format =>
    simp only [kind] at core
    split at core <;> cases core
  | array items =>
    cases items with
    | none => simp only [kind] at core; cases core
    | some items =>
      simp only [kind] at core
      cases core
      exact ⟨items, rfl, rfl⟩
  | object shape =>
    simp only [kind, objectCore] at core
    split at core
    · cases core
    · split at core <;> cases core
  | _ => simp only [kind] at core; cases core

end Parts

section Reading
variable {o : ObjectPlan Key} {v : Json} {n : Nat} {w : Native} {required : Bool}
  {sub : Key → Pointer × Json → Recorded Native}

/-- Readings of a value that succeed come by the objects that the check of its tags comes by. -/
def Tracks (s : Spec) (sub : Key → Pointer × Json → Recorded Native) (v : Json) : Prop :=
  ∀ (id : Id) (required : Bool) (path : Pointer) (w : Native),
    s.resultAt .unmarshal (s.key id required) v = .ok w →
      Runs (sub (s.key id required) (path, v)) w (tagVisits s path id v)

theorem Settles.object_start {d : Direction Json Native} (settles : s.Settles d v n k last)
    (core : (s.plan last).core = .object o) : ∃ o, (s.plan k).core = .object o := by
  cases settles with
  | stay => exact ⟨o, core⟩
  | choose chosen _ =>
    obtain ⟨o, _, here, _⟩ := object_of_next? chosen
    exact ⟨o, here⟩

theorem runs_items {items : Id} {xs : List Json} {ys : List Native} (path : Pointer) (i : Nat)
    (read : List.Forall₂ (fun x y => s.resultAt .unmarshal (s.key items true) x = .ok y) xs ys)
    (each : ∀ x ∈ xs, s.Tracks sub x) :
    List.Forall₂ (fun a y => Runs (sub (s.key items true) a) y (tagVisits s a.1 items a.2))
      (itemsAt path i xs) ys := by
  induction read generalizing i with
  | nil => exact .nil
  | @cons x y xs ys here rest ih =>
    have later := ih (i + 1) fun z member => each z (List.mem_cons_of_mem x member)
    exact .cons (each x List.mem_cons_self items true _ y here) later

theorem runs_fields {shape : Shape Id} (path : Pointer)
    (properties : o.properties = s.propertyKeys shape)
    {es : List (String × Json)} {fields : List (String × Native)}
    (becomes : List.Forall₂ (Plan.Becomes .unmarshal (s.resultAt .unmarshal) o) es fields)
    (each : ∀ e ∈ es, s.Tracks sub e.2) :
    List.Forall₂ (fun a f => Runs (Plan.field Direction.unmarshal.located sub o a) f
      (s.entryVisits shape.properties a)) (entriesAt path es) fields := by
  induction becomes with
  | nil => exact .nil
  | @cons e f es fields here rest ih =>
    refine .cons ?_ (ih fun e' member => each e' (List.mem_cons_of_mem e member))
    cases here with
    | @declared name x y l property result =>
      have found := property
      rw [properties, get?_propertyKeys] at found
      obtain ⟨id, declared, rfl⟩ := Option.map_eq_some_iff.mp found
      have part := each (name, x) List.mem_cons_self id _ (path.child name) y result
      simp only [Plan.field, property, entryVisits, declared]
      exact part.map fun y => (name, y)
    | @undeclared name x none =>
      have absent := none
      rw [properties, get?_propertyKeys, Option.map_eq_none_iff] at absent
      simp only [Plan.field, none, entryVisits, absent]
      exact runs_pure _

section Cases
variable (h : s.ReadAs document naming order)
  (settles : s.Settles .unmarshal v n (s.key id required) last)
include h settles

theorem ReadAs.runs_object {es : List (String × Json)} {fields : List (String × Native)}
    (core : (s.plan last).core = .object o) (isObject : v = .object es)
    (becomes : List.Forall₂ (Plan.Becomes .unmarshal (s.resultAt .unmarshal) o) es fields)
    (each : ∀ e ∈ es, s.Tracks sub e.2) :
    Runs (s.settleRecorded (path, v) s.hops (s.key id required) >>= fun q =>
        q.apply Direction.unmarshal.located sub (path, v))
      (Direction.unmarshal.object o.typed (fields ++ Plan.missing .unmarshal o fields))
      (tagVisits s path id v) := by
  subst isObject
  obtain ⟨settled, shape, properties, planned⟩ := h.runs_settle path settles core rfl
    s.hops s.models.length (settles.le_hops h.formed) (settles.le_models h.formed)
  have parts := Runs.mapM (runs_fields path planned becomes each)
  have located : Direction.unmarshal.located.entries? (path, .object es) =
      some (entriesAt path es) := rfl
  have visits : tagVisits s path id (.object es) =
      (objectVisits s path es s.models.length id).1 ++
        tagVisitsMembers s path shape.properties es := by
    obtain ⟨_, first⟩ := settles.object_start core
    obtain ⟨own, kind, _⟩ := core_object first
    have kind : (s.node (s.concrete id)).kind = .object own := kind
    unfold tagVisits
    simp only [kind, properties]
  rw [visits, tagVisitsMembers_eq]
  refine settled.bind ?_
  rw [Plan.apply_object core located]
  exact parts.map fun fields =>
    Direction.unmarshal.object o.typed (fields ++ Plan.missing .unmarshal o fields)

variable (unique : document.KeysUnique)
include unique

theorem ReadAs.runs_plain
    (plain : (s.plan last).core = .pass ∨ ∃ c, (s.plan last).core = .convert c)
    (applied : Runs ((s.plan last).apply Direction.unmarshal.located sub (path, v)) w []) :
    Runs (s.settleRecorded (path, v) s.hops (s.key id required) >>= fun q =>
      q.apply Direction.unmarshal.located sub (path, v)) w (tagVisits s path id v) := by
  have other : ∀ o, (s.plan last).core ≠ .object o := by
    intro o core
    rw [core] at plain
    rcases plain with core | ⟨c, core⟩ <;> cases core
  obtain ⟨rfl, stays⟩ := h.stays_at unique settles other
  have settled := runs_stay stays (runs_unrecorded path other) s.hops
  rw [tagVisits_of_plain plain rfl]
  exact settled.bind applied

theorem ReadAs.runs_list {schema : String} {item : Key} {xs : List Json} {ys : List Native}
    (core : (s.plan last).core = .list schema item) (isList : v = .array xs)
    (read : List.Forall₂ (fun x y => s.resultAt .unmarshal item x = .ok y) xs ys)
    (each : ∀ x ∈ xs, s.Tracks sub x) :
    Runs (s.settleRecorded (path, v) s.hops (s.key id required) >>= fun q =>
      q.apply Direction.unmarshal.located sub (path, v)) (.list ys) (tagVisits s path id v) := by
  have other : ∀ o, (s.plan last).core ≠ .object o := by
    intro o object
    rw [core] at object
    cases object
  obtain ⟨rfl, stays⟩ := h.stays_at unique settles other
  obtain ⟨items, kind, rfl⟩ := items_of_core core
  have settled := runs_stay stays (runs_unrecorded path other) s.hops
  have parts := Runs.mapM (runs_items path 0 read each)
  subst isList
  have located : Direction.unmarshal.located.list? (path, .array xs) = some (itemsAt path 0 xs) := rfl
  have visits : tagVisits s path id (.array xs) = tagVisitsItems s path items 0 xs := by
    have here : (s.node (s.concrete id)).kind = .array (some items) := kind
    unfold tagVisits
    simp only [here]
  rw [visits, tagVisitsItems_eq]
  have applied := parts.map Direction.unmarshal.located.list
  rw [← Plan.apply_list core located] at applied
  exact settled.bind applied

end Cases

theorem ReadAs.tracks (h : s.ReadAs document naming order) (unique : document.KeysUnique)
    {fuel : Nat} (deep : v.size < fuel) : s.Tracks (s.recordedAt fuel) v := by
  -- on the fuel, since every part of a value is smaller than the value
  induction fuel generalizing v with
  | zero => omega
  | succ fuel ih =>
    intro id required path w read
    rw [recordedAt]
    rcases h.formed.resultAt_ok read with ⟨j, null, rule, rfl⟩ | ⟨null, rule, rfl⟩ |
      ⟨unruled, n, last, settles, takes⟩
    · obtain rfl := Json.isNull_iff.mp null
      rw [Plan.guard_default (d := Direction.unmarshal.located) (v := (path, Json.null)) null rule]
      exact runs_pure _
    · obtain rfl := Json.isNull_iff.mp null
      rw [Plan.guard_keep (d := Direction.unmarshal.located) (v := (path, Json.null)) null rule]
      exact runs_pure _
    · rw [Plan.guard_unruled (d := Direction.unmarshal.located) (v := (path, v)) unruled]
      cases takes with
      | pass core =>
        refine h.runs_plain settles unique (.inl core) ?_
        simp only [Plan.apply, core]
        exact runs_pure _
      | @convert c w core converted =>
        refine h.runs_plain settles unique (.inr ⟨c, core⟩) ?_
        have here : Direction.unmarshal.located.convert c (path, v) = .ok w := converted
        simp only [Plan.apply, core, here]
        exact runs_pure _
      | list core list items =>
        obtain rfl := Json.array?_eq_some.mp list
        refine h.runs_list settles unique core rfl items fun x member => ih ?_
        have smaller := Direction.unmarshal.size_item list member
        exact Nat.lt_of_lt_of_le smaller (Nat.le_of_lt_succ deep)
      | object core entries becomes =>
        obtain rfl := Json.object?_eq_some.mp entries
        refine h.runs_object settles core rfl becomes fun e member => ih ?_
        have smaller := Direction.unmarshal.size_entry entries member
        exact Nat.lt_of_lt_of_le smaller (Nat.le_of_lt_succ deep)

theorem resultAt_field {shape : Shape Id} (properties : o.properties = s.propertyKeys shape)
    {es : List (String × Json)} {fields : List (String × Native)}
    (becomes : List.Forall₂ (Plan.Becomes .unmarshal (s.resultAt .unmarshal) o) es fields) {e : String × Json}
    (member : e ∈ es) (declared : Entries.get? e.1 shape.properties = some id) :
    ∃ required w, s.resultAt .unmarshal (s.key id required) e.2 = .ok w := by
  induction becomes with
  | nil => cases member
  | cons here _ ih =>
    rcases List.mem_cons.mp member with rfl | member
    · cases here with
      | declared property result =>
        rw [properties, get?_propertyKeys, declared] at property
        cases property
        exact ⟨_, _, result⟩
      | undeclared absent =>
        rw [properties, get?_propertyKeys, declared] at absent
        cases absent
    · exact ih member

theorem resultAt_item {items : Id} {xs : List Json}
    (kind : (s.node (s.concrete id)).kind = .array (some items))
    (read : s.resultAt .unmarshal (s.key id required) (.array xs) = .ok w) (formed : s.WellFormed) :
    ∀ x ∈ xs, ∃ y, s.resultAt .unmarshal (s.key items true) x = .ok y := by
  have core : (s.plan (s.key id required)).core = .list (s.node (s.concrete id)).label (s.key items true) := by
    simp only [plan, key, kind]
  rcases formed.resultAt_ok read with ⟨_, null, _⟩ | ⟨null, _⟩ | ⟨-, n, last, settles, takes⟩
  · cases null
  · cases null
  · obtain rfl : s.key id required = last := by
      cases settles with
      | stay => rfl
      | choose chosen _ =>
        obtain ⟨o, _, object, _⟩ := object_of_next? chosen
        rw [core] at object
        cases object
    cases takes with
    | list here list parts =>
      rw [core] at here
      cases here
      cases list
      intro x member
      clear read settles
      induction parts with
      | nil => cases member
      | cons first _ ih =>
        rcases List.mem_cons.mp member with rfl | member
        · exact ⟨_, first⟩
        · exact ih member
    | pass here | convert here | object here =>
      rw [core] at here
      cases here

/-- An object that is read is read by a plan of an object. -/
theorem ReadAs.takes_object (h : s.ReadAs document naming order) (unique : document.KeysUnique) {shape : Shape Id}
    (kind : (s.node (s.concrete id)).kind = .object shape)
    (read : s.resultAt .unmarshal (s.key id required) (.object ms) = .ok w) :
    ∃ n last o fields, s.Settles .unmarshal (.object ms) n (s.key id required) last ∧
      (s.plan last).core = .object o ∧
      List.Forall₂ (Plan.Becomes .unmarshal (s.resultAt .unmarshal) o) ms fields := by
  rcases h.formed.resultAt_ok read with ⟨_, null, _⟩ | ⟨null, _⟩ | ⟨_, n, last, settles, takes⟩
  · cases null
  · cases null
  · have object : (∀ o, (s.plan last).core ≠ .object o) →
        (s.plan last).core = .object (s.freePlan (s.node (s.concrete id)).label shape) ∨
          ∃ name, (s.plan last).core = .unknownModel name := by
      intro other
      obtain ⟨rfl, _⟩ := h.stays_at unique settles other
      cases bound : shape.model.bind s.model? with
      | none => exact core_free kind bound
      | some b => exact absurd (core_bound kind bound) (other _)
    cases takes with
    | object core entries becomes =>
      cases entries
      exact ⟨n, last, _, _, settles, core, becomes⟩
    | pass here | convert here | list here =>
      have other : ∀ o, (s.plan last).core ≠ .object o := by
        rw [here]
        exact nofun
      rcases object other with core | ⟨name, core⟩ <;> rw [here] at core <;> cases core

/-- The tags of a payload that is read come to an end. -/
theorem ReadAs.checkTags_read (h : s.ReadAs document naming order) (unique : document.KeysUnique)
    (read : s.resultAt .unmarshal (s.key id required) v = .ok w) {fuel : Nat}
    (deep : v.size * (s.models.length + 1) < fuel) (path : Pointer) :
    checkTags s fuel path id v = some (tagFaults s path id v) := by
  induction size : v.size using Nat.strongRecOn generalizing v fuel path id required w with
  | ind bound ih =>
    subst size
    have parts : ∀ x : Json, x.size < v.size → ∀ id required w,
        s.resultAt .unmarshal (s.key id required) x = .ok w → ∀ less,
        (v.size - 1) * (s.models.length + 1) < less → ∀ path,
          checkTags s less path id x = some (tagFaults s path id x) := by
      intro x smaller id required w read less above path
      refine ih _ smaller read (Nat.lt_of_le_of_lt ?_ above) path rfl
      exact Nat.mul_le_mul_right _ (by omega)
    refine h.checkTags_of_parts unique required (fuel_for_parts v.size_pos deep) ?_ ?_
    · rintro xs items rfl kind x member less above path
      obtain ⟨y, read⟩ := resultAt_item kind read h.formed x member
      exact parts x (Direction.unmarshal.size_item (v := .array xs) rfl member) items true y read less above path
    · rintro ms shape rfl kind
      obtain ⟨n, last, o, fields, settles, core, becomes⟩ := h.takes_object unique kind read
      refine ⟨⟨n, last, settles⟩, fun m member next declared less above path' => ?_⟩
      obtain ⟨_, final, properties, planned⟩ := h.runs_settle path settles core rfl
        s.models.length s.models.length (settles.le_models h.formed) (settles.le_models h.formed)
      rw [h.objectTag_eq unique kind, properties] at declared
      obtain ⟨required, w, read⟩ := resultAt_field planned becomes member declared
      exact parts m.2 (Direction.unmarshal.size_entry (v := .object ms) rfl member) next required w read less above path'

end Reading

/-- The check of tags and the transform that reads a payload come by the same objects in the same
order and hand them to the same subtypes. The check ends, and faults are found with the tags that a plan
knows nothing of. So without faults no object is read as something more general than its tag says. -/
theorem check_agrees (built : build document options formats = .ok s) (unique : document.KeysUnique)
    (uses : List Use) {v : Json} {n : Native}
    (read : (s.unmarshal (s.after uses).unmarshal id v).2 = .ok n) :
    Erases (s.recorded (s.key id true) v) (s.unmarshal (s.after uses).unmarshal id v).2 ∧
    ∃ visits, (s.recorded (s.key id true) v).run [] = .ok (n, visits) ∧
      tagVisits s .root id v = visits ∧
      tagFaults? s id v = some (tagFaults s .root id v) ∧
      tagFaults s .root id v = visits.filterMap s.stray? ∧
      (tagFaults s .root id v = [] ↔ ∀ u ∈ visits, ∀ o mark tag,
        (s.plan ⟨u.node, true⟩).core = .object o → o.discriminator = some mark →
        Entries.get? mark u.members = some tag → tag = .string o.expected ∨
          ∃ m ∈ s.models, tag = .string m.name ∧ u.next = some m.schema) := by
  obtain ⟨naming, order, h⟩ := read_as built
  rw [unmarshal_after] at read ⊢
  have runs := h.tracks unique (Nat.lt_succ_self v.size) id true .root n read
  have faults := h.tagFaults_eq unique .root id v
  have checked := h.tagFaults?_of_checkTags (h.checkTags_read unique read (Nat.lt_succ_self _) .root)
  refine ⟨s.recorded_erases (s.key id true) v, tagVisits s .root id v, runs [], rfl, checked, faults, ?_⟩
  rw [faults, List.filterMap_eq_nil_iff]
  constructor
  · intro none u member
    exact (h.stray?_eq_none (h.planned .root id v u member)).mp (none u member)
  · intro fits u member
    exact (h.stray?_eq_none (h.planned .root id v u member)).mpr (fits u member)

/-- A poodle comes by as a pet and is read as a dog, which is no breed that the document knows. -/
theorem check_agrees_on_poodle :
    let v : Json := .object [("kind", .string "Dog"), ("breed", .string "Poodle")]
    ∃ s id n visits, build breeds .standard .standard = .ok s ∧ breeds.KeysUnique ∧
      s.definition? "Pet" = some id ∧ (s.unmarshal (s.after []).unmarshal id v).2 = .ok n ∧
      (s.recorded (s.key id true) v).run [] = .ok (n, visits) ∧ tagVisits s .root id v = visits ∧
      visits.map (fun u => (u.path.text, u.next.isSome)) = [("", true), ("", false)] ∧
      (visits.filterMap s.stray?).map (fun f => (f.path.text, f.message)) =
        [("/breed", "\"Poodle\" is not a known subtype of Dog")] := by
  intro v
  have found : (build breeds .standard .standard).toOption.any (fun s =>
      (s.definition? "Pet").any fun id => decide
        ((s.unmarshal (s.after []).unmarshal id v).2.isOk = true ∧
          (tagVisits s .root id v).map (fun u => (u.path.text, u.next.isSome)) =
            [("", true), ("", false)] ∧
          ((tagVisits s .root id v).filterMap s.stray?).map (fun f => (f.path.text, f.message)) =
            [("/breed", "\"Poodle\" is not a known subtype of Dog")])) = true := by
    decide +kernel
  obtain ⟨s, built, found⟩ := Except.exists_of_any found
  obtain ⟨id, defined, found⟩ := (Option.any_eq_true _ _).mp found
  obtain ⟨reads, ways, faults⟩ := of_decide_eq_true found
  obtain ⟨n, read⟩ := Except.exists_of_isOk reads
  obtain ⟨_, visits, run, same, _, _, _⟩ := check_agrees built breeds_unique [] read
  rw [same] at ways faults
  exact ⟨s, id, n, visits, built, breeds_unique, defined, read, run, same, ways, faults⟩

end Spec
end ApiPayload
