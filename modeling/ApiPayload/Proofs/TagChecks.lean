import ApiPayload.Proofs.Complete
import ApiPayload.Proofs.Saturation
import ApiPayload.Proofs.Tags

/-
Checks of tags that end, and checks that do not. A check that ends finds the faults that recursion on the
payload alone lists. A check that has not ended when it has had a step for each node and each part of the payload
never ends.
-/
namespace ApiPayload

open Schema

namespace Validation

section Parts
variable {s : Spec} {sub sub' : Pointer → Id → Json → Option (List TagFault)} {path : Pointer} {items : Id}
  {properties : List (String × Id)} {xs : List Json} {ms : List (String × Json)} {i : Nat} {faults : List TagFault}

theorem checkItems_cons {x : Json} : checkItems sub path items i (x :: xs) = some faults ↔
    ∃ here later, sub (path.item i) items x = some here ∧
      checkItems sub path items (i + 1) xs = some later ∧ here ++ later = faults := by
  simp [checkItems, Option.bind_eq_some_iff]

theorem checkMembers_declared {k : String} {x : Json} {id : Id} (declared : Entries.get? k properties = some id) :
    checkMembers sub path properties ((k, x) :: ms) = some faults ↔
      ∃ here later, sub (path.child k) id x = some here ∧
        checkMembers sub path properties ms = some later ∧ here ++ later = faults := by
  simp [checkMembers, declared, Option.bind_eq_some_iff]

theorem checkMembers_undeclared {k : String} {x : Json} (undeclared : Entries.get? k properties = none) :
    checkMembers sub path properties ((k, x) :: ms) = checkMembers sub path properties ms := by
  simp [checkMembers, undeclared]

theorem checkItems_below (each : ∀ j x, xs[j]? = some x → ∀ found,
      sub (path.item (i + j)) items x = some found → sub' (path.item (i + j)) items x = some found)
    (done : checkItems sub path items i xs = some faults) : checkItems sub' path items i xs = some faults := by
  induction xs generalizing i faults with
  | nil => exact done
  | cons x rest ih =>
    obtain ⟨here, later, first, done, same⟩ := checkItems_cons.mp done
    refine checkItems_cons.mpr ⟨here, later, each 0 x rfl here first, ih (fun j y present found below => ?_) done, same⟩
    have one := each (j + 1) y present found
    rw [← Nat.add_assoc, Nat.add_right_comm] at one
    exact one below

theorem checkMembers_below (each : ∀ k x id, (k, x) ∈ ms → Entries.get? k properties = some id → ∀ found,
      sub (path.child k) id x = some found → sub' (path.child k) id x = some found)
    (done : checkMembers sub path properties ms = some faults) :
    checkMembers sub' path properties ms = some faults := by
  induction ms generalizing faults with
  | nil => exact done
  | cons m rest ih =>
    obtain ⟨k, x⟩ := m
    have others : ∀ {found}, checkMembers sub path properties rest = some found →
        checkMembers sub' path properties rest = some found :=
      ih fun k x id member => each k x id (List.mem_cons_of_mem _ member)
    cases known : Entries.get? k properties with
    | none =>
      rw [checkMembers_undeclared known] at done ⊢
      exact others done
    | some id =>
      obtain ⟨here, later, first, done, same⟩ := (checkMembers_declared known).mp done
      exact (checkMembers_declared known).mpr
        ⟨here, later, each k x id List.mem_cons_self known here first, others done, same⟩

theorem checkItems_eq (each : ∀ x ∈ xs, ∀ path, sub path items x = some (tagFaults s path items x))
    (path : Pointer) (i : Nat) : checkItems sub path items i xs = some (tagFaultsItems s path items i xs) := by
  induction xs generalizing i with
  | nil => rfl
  | cons x rest ih =>
    have later := ih (fun y member => each y (List.mem_cons_of_mem x member)) (i + 1)
    exact checkItems_cons.mpr ⟨_, _, each x List.mem_cons_self _, later, rfl⟩

theorem checkMembers_eq (each : ∀ m ∈ ms, ∀ id, Entries.get? m.1 properties = some id →
      ∀ path, sub path id m.2 = some (tagFaults s path id m.2)) (path : Pointer) :
    checkMembers sub path properties ms = some (tagFaultsMembers s path properties ms) := by
  induction ms with
  | nil => rfl
  | cons m rest ih =>
    obtain ⟨k, x⟩ := m
    have later := ih fun m member => each m (List.mem_cons_of_mem _ member)
    rw [tagFaultsMembers]
    cases known : Entries.get? k properties with
    | none =>
      rw [checkMembers_undeclared known]
      exact later
    | some id =>
      exact (checkMembers_declared known).mpr ⟨_, _, each (k, x) List.mem_cons_self id known _, later, rfl⟩

theorem eq_of_checkItems (each : ∀ x ∈ xs, ∀ path found, sub path items x = some found →
      found = tagFaults s path items x)
    (done : checkItems sub path items i xs = some faults) : faults = tagFaultsItems s path items i xs := by
  induction xs generalizing i faults with
  | nil => exact (Option.some.inj done).symm
  | cons x rest ih =>
    obtain ⟨here, later, first, tail, rfl⟩ := checkItems_cons.mp done
    rw [tagFaultsItems, each x List.mem_cons_self _ here first,
      ih (fun y member => each y (List.mem_cons_of_mem x member)) tail]

theorem eq_of_checkMembers (each : ∀ m ∈ ms, ∀ path id found, sub path id m.2 = some found →
      found = tagFaults s path id m.2)
    (done : checkMembers sub path properties ms = some faults) :
    faults = tagFaultsMembers s path properties ms := by
  induction ms generalizing faults with
  | nil => exact (Option.some.inj done).symm
  | cons m rest ih =>
    obtain ⟨k, x⟩ := m
    have others : ∀ {found}, checkMembers sub path properties rest = some found →
        found = tagFaultsMembers s path properties rest :=
      ih fun m member => each m (List.mem_cons_of_mem _ member)
    rw [tagFaultsMembers]
    cases known : Entries.get? k properties with
    | none =>
      rw [checkMembers_undeclared known] at done
      exact others done
    | some id =>
      obtain ⟨here, later, first, tail, rfl⟩ := (checkMembers_declared known).mp done
      rw [others tail, each (k, x) List.mem_cons_self _ id here first]

end Parts

/-- What a check can come to: a node, and a part of the payload at its place. -/
def tagStates (s : Spec) (v : Json) : List (Id × Pointer × Json) :=
  List.range s.nodes.size ×ˢ v.spots .root

theorem length_tagStates (s : Spec) (v : Json) : (tagStates s v).length = v.size * s.nodes.size := by
  rw [tagStates, List.length_product, List.length_range, Json.length_spots, Nat.mul_comm]

end Validation

namespace Spec

open Validation

variable {document : Json} {s : Spec} {naming : Naming} {order : List Pointer} {b : Model} {shape : Shape Id}
  {id : Id} {path : Pointer} {v : Json} {ms : List (String × Json)} {fuel m n : Nat} {faults : List TagFault}
  {last : Key}

theorem tagFaults?_untyped (untyped : (s.node id).kind = .untyped) (v : Json) : tagFaults? s id v = some [] := by
  have concrete : s.concrete id = id := concrete_self (by simp [untyped])
  simp only [tagFaults?, checkTags, concrete, untyped]

theorem tagFaults?_null (s : Spec) (id : Id) : tagFaults? s id .null = some [] := by
  cases kind : (s.node (s.concrete id)).kind <;> simp only [tagFaults?, checkTags, kind]

theorem tagStates_member {q : Pointer} {properties : List (String × Id)}
    (inside : ∀ e ∈ properties, e.2 < s.nodes.size) (spot : (q, .object ms) ∈ v.spots .root) :
    ∀ k x id, (k, x) ∈ ms → Entries.get? k properties = some id → (id, q.child k, x) ∈ tagStates s v := by
  intro k x id member declared
  refine List.mem_product.mpr ⟨List.mem_range.mpr ?_, Json.spots_member spot member⟩
  exact inside _ (Entries.mem_of_get? declared)

section Rounds
variable (h : s.ReadAs document naming order)
include h

/-- An object is checked by way of states of the whole check. -/
theorem ReadAs.object_round {q : Pointer}
    (below : Below (tagStates s v) (fun t => checkTags s m t.2.1 t.1 t.2.2) fun t => checkTags s n t.2.1 t.1 t.2.2)
    (inside : s.concrete id < s.nodes.size) (spot : (q, .object ms) ∈ v.spots .root)
    (kind : (s.node (s.concrete id)).kind = .object shape)
    (done : checkTags s (m + 1) q id (.object ms) = some faults) :
    checkTags s (n + 1) q id (.object ms) = some faults := by
  have members : ∀ {properties : List (String × Id)} {found}, (∀ e ∈ properties, e.2 < s.nodes.size) →
      checkMembers (checkTags s m) q properties ms = some found →
      checkMembers (checkTags s n) q properties ms = some found := by
    intro properties found ranged done
    refine checkMembers_below (fun k x next member declared => ?_) done
    exact below _ (tagStates_member ranged spot k x next member declared)
  simp only [checkTags, kind] at done ⊢
  cases bound : shape.model.bind s.model? with
  | none =>
    rw [bound] at done
    refine members (fun e listed => ?_) done
    exact h.linked.links _ inside e.2 (by rw [kind]; exact List.mem_map_of_mem listed)
  | some b =>
    rw [bound] at done
    have ranged := (h.linked.models b (listed_of_bound bound)).2
    cases tagged : tagOf s b ms with
    | sub m =>
      simp only [tagged] at done ⊢
      obtain ⟨listed, _⟩ := h.subtype?_eq_some.mp (h.tagOf_eq_sub.mp tagged)
      refine below (m.schema, q, .object ms) (List.mem_product.mpr ⟨List.mem_range.mpr ?_, spot⟩) _ done
      exact (h.linked.models m listed).1
    | unknown mark tag =>
      simp only [tagged] at done ⊢
      obtain ⟨found, parts, same⟩ := Option.map_eq_some_iff.mp done
      exact Option.map_eq_some_iff.mpr ⟨found, members ranged parts, same⟩
    | _ =>
      simp only [tagged] at done ⊢
      exact members ranged done

/-- Each step of a check goes on with the states that one further step allows. -/
theorem ReadAs.tag_rounds (v : Json) :
    Rounds (fun n (t : Id × Pointer × Json) => checkTags s n t.2.1 t.1 t.2.2) (tagStates s v) where
  start _ _ := rfl
  round m n below := by
    rintro ⟨id, q, x⟩ member faults done
    obtain ⟨within, spot⟩ := List.mem_product.mp member
    have inside := h.linked.concrete id (List.mem_range.mp within)
    dsimp only at done spot ⊢
    cases kind : (s.node (s.concrete id)).kind with
    | object shape =>
      cases x with
      | object ms => exact h.object_round below inside spot kind done
      | _ => simpa only [checkTags, kind] using done
    | array items =>
      cases items with
      | none => simpa only [checkTags, kind] using done
      | some items =>
        cases x with
        | array xs =>
          simp only [checkTags, kind] at done ⊢
          have ranged : items < s.nodes.size :=
            h.linked.links _ inside items (by rw [kind]; exact List.mem_singleton_self items)
          refine checkItems_below (fun j y present => ?_) done
          rw [Nat.zero_add]
          exact below (items, q.item j, y)
            (List.mem_product.mpr ⟨List.mem_range.mpr ranged, Json.spots_item spot present⟩)
        | _ => simpa only [checkTags, kind] using done
    | _ => simpa only [checkTags, kind] using done

/-- More steps than there are states change nothing. -/
theorem ReadAs.checkTags_enough (inside : id < s.nodes.size) (v : Json) (more : v.size * s.nodes.size ≤ fuel) :
    checkTags s fuel .root id v = checkTags s (v.size * s.nodes.size) .root id v := by
  have start : (id, Pointer.root, v) ∈ tagStates s v :=
    List.mem_product.mpr ⟨List.mem_range.mpr inside, Json.spots_self _ _⟩
  rw [← length_tagStates] at more ⊢
  exact (h.tag_rounds v).eq_length start more

/-- What a check finds with some fuel, it finds. -/
theorem ReadAs.tagFaults?_of_checkTags (done : checkTags s fuel .root id v = some faults) :
    tagFaults? s id v = some faults := by
  by_cases inside : id < s.nodes.size
  · have start : (id, Pointer.root, v) ∈ tagStates s v :=
      List.mem_product.mpr ⟨List.mem_range.mpr inside, Json.spots_self _ _⟩
    have settled := (h.tag_rounds v).below_length fuel _ start faults done
    rw [length_tagStates] at settled
    exact (h.checkTags_enough inside v (Nat.le_succ _)).trans settled
  · have blank : (s.node id).kind = .untyped := by
      rw [node, Array.getElem?_eq_none (Nat.le_of_not_lt inside)]
      rfl
    have concrete : s.concrete id = id := concrete_self (by simp [blank])
    cases fuel with
    | zero => cases done
    | succ fuel =>
      simp only [checkTags, concrete, blank] at done
      exact (tagFaults?_untyped blank v).trans done

/-- A check without a result never ends. -/
theorem ReadAs.tagFaults?_eq_none : tagFaults? s id v = none ↔ ∀ fuel, checkTags s fuel .root id v = none := by
  refine ⟨fun pending fuel => ?_, fun never => never _⟩
  cases done : checkTags s fuel .root id v with
  | none => rfl
  | some faults => exact nomatch pending.symm.trans (h.tagFaults?_of_checkTags done)

end Rounds

section Ends
variable (h : s.ReadAs document naming order) (unique : document.KeysUnique) {required : Bool}
include h unique

/-- A check of an object whose tags end is the check of the model that they end at, so many steps later. -/
theorem ReadAs.checkTags_settled (settles : s.Settles .unmarshal (.object ms) n (s.key id required) last)
    (kind : (s.node (s.concrete id)).kind = .object shape) (bound : shape.model.bind s.model? = some b) :
    ∃ m fault, (∀ more, n ≤ more → settleTag s ms more b = some (m, fault)) ∧
      ∀ fuel path, checkTags s (fuel + n + 1) path id (.object ms) =
        (checkMembers (checkTags s fuel) path m.shape.properties ms).map
          ((fault.map fun e => (⟨path.child e.1, e.2, m.name⟩ : TagFault)).toList ++ ·) := by
  generalize start : s.key id required = k at settles
  induction settles generalizing id required b shape with
  | stay stays =>
    subst start
    rw [h.next?_bound (k := s.key id required) kind bound] at stays
    cases tagged : tagOf s b ms with
    | sub m =>
      rw [tagged] at stays
      cases stays
    | unknown mark tag =>
      refine ⟨b, some (mark, tag), fun more _ => ?_, fun fuel path => ?_⟩
      · unfold settleTag
        rw [tagged]
      · simp only [checkTags, kind, bound, tagged]
        rfl
    | _ =>
      refine ⟨b, none, fun more _ => ?_, fun fuel path => ?_⟩
      · unfold settleTag
        rw [tagged]
      · simp only [checkTags, kind, bound, tagged]
        exact Option.map_id'.symm
  | @choose n k next last chosen _ ih =>
    subst start
    rw [h.next?_bound (k := s.key id required) kind bound] at chosen
    cases tagged : tagOf s b ms with
    | sub m =>
      rw [tagged] at chosen
      obtain ⟨kind', bound'⟩ := h.bound_sub unique tagged
      obtain ⟨ending, fault, settled, checked⟩ := ih kind' bound' (Option.some.inj chosen)
      refine ⟨ending, fault, fun more le => ?_, fun fuel path => ?_⟩
      · obtain ⟨more, rfl⟩ := Nat.exists_eq_succ_of_ne_zero (Nat.ne_zero_of_lt le)
        unfold settleTag
        rw [tagged]
        exact settled more (Nat.le_of_succ_le_succ le)
      · simp only [checkTags, kind, bound, tagged]
        exact checked fuel path
    | _ =>
      rw [tagged] at chosen
      cases chosen

/-- The check of an object ends only if its tags do. -/
theorem ReadAs.settles_of_checkTags (kind : (s.node (s.concrete id)).kind = .object shape)
    (bound : shape.model.bind s.model? = some b) (done : checkTags s fuel path id (.object ms) = some faults) :
    ∃ n last, n < fuel ∧ s.Settles .unmarshal (.object ms) n (s.key id true) last := by
  induction fuel generalizing id b shape with
  | zero => cases done
  | succ fuel ih =>
    cases tagged : tagOf s b ms with
    | sub m =>
      simp only [checkTags, kind, bound, tagged] at done
      obtain ⟨kind', bound'⟩ := h.bound_sub unique tagged
      obtain ⟨n, last, less, rest⟩ := ih kind' bound' done
      refine ⟨n + 1, last, Nat.succ_lt_succ less, .choose ?_ rest⟩
      rw [h.next?_bound (k := s.key id true) kind bound, tagged]
    | _ =>
      refine ⟨0, _, Nat.succ_pos fuel, .stay ?_⟩
      rw [h.next?_bound (k := s.key id true) kind bound, tagged]

/-- An object whose tags end is checked with the properties that they lead to. -/
theorem ReadAs.checkTags_object (settles : s.Settles .unmarshal (.object ms) n (s.key id required) last)
    (kind : (s.node (s.concrete id)).kind = .object shape) {floor : Nat}
    (members : ∀ less, floor < less → ∀ m ∈ ms, ∀ next, Entries.get? m.1 (objectTag s shape ms path).1 = some next →
      ∀ path, checkTags s less path next m.2 = some (tagFaults s path next m.2))
    (deep : floor + n + 1 < fuel) :
    checkTags s fuel path id (.object ms) = some (tagFaults s path id (.object ms)) := by
  have parts := fun less deep => checkMembers_eq (members less deep) path
  simp only [tagFaults, kind]
  cases bound : shape.model.bind s.model? with
  | none =>
    obtain ⟨fuel, rfl⟩ := Nat.exists_eq_succ_of_ne_zero (Nat.ne_zero_of_lt deep)
    simp only [objectTag, bound] at parts ⊢
    simp only [checkTags, kind, bound]
    exact parts fuel (by omega)
  | some b =>
    obtain ⟨m, fault, settled, checked⟩ := h.checkTags_settled unique settles kind bound
    obtain ⟨less, rfl⟩ := Nat.exists_eq_add_of_le' (by omega : n + 1 ≤ fuel)
    have own := settled s.models.length (settles.le_models h.formed)
    simp only [objectTag, bound, own] at parts ⊢
    rw [← Nat.add_assoc, checked]
    cases fault with
    | none => rw [parts less (by omega)]; rfl
    | some e => rw [parts less (by omega)]; rfl

omit h unique in
/-- The fuel for one value is enough for each smaller one and for all tags of one object. -/
theorem fuel_for_parts {size : Nat} (positive : 0 < size) (deep : size * (s.models.length + 1) < fuel) :
    (size - 1) * (s.models.length + 1) + s.models.length + 1 < fuel := by
  rw [← Nat.sub_add_cancel positive, Nat.add_mul, Nat.one_mul] at deep
  omega

/-- What a check of all parts that it comes by finds, a check of the whole finds, if the tags of the whole end. -/
theorem ReadAs.checkTags_of_parts {floor : Nat} (required : Bool) (deep : floor + s.models.length + 1 < fuel)
    (items : ∀ xs next, v = .array xs → (s.node (s.concrete id)).kind = .array (some next) →
      ∀ x ∈ xs, ∀ less, floor < less → ∀ path, checkTags s less path next x = some (tagFaults s path next x))
    (objects : ∀ ms shape, v = .object ms → (s.node (s.concrete id)).kind = .object shape →
      (∃ n last, s.Settles .unmarshal v n (s.key id required) last) ∧ ∀ m ∈ ms, ∀ next,
        Entries.get? m.1 (objectTag s shape ms path).1 = some next → ∀ less, floor < less →
          ∀ path, checkTags s less path next m.2 = some (tagFaults s path next m.2)) :
    checkTags s fuel path id v = some (tagFaults s path id v) := by
  obtain ⟨fuel, rfl⟩ := Nat.exists_eq_succ_of_ne_zero (Nat.ne_zero_of_lt deep)
  cases kind : (s.node (s.concrete id)).kind with
  | object shape =>
    cases v with
    | object ms =>
      obtain ⟨⟨n, last, settles⟩, members⟩ := objects ms shape rfl kind
      have few := settles.le_models h.formed
      refine h.checkTags_object unique settles kind (fun less above m listed next declared => ?_)
        (by omega : floor + n + 1 < fuel + 1)
      exact members m listed next declared less above
    | _ => simp only [checkTags, tagFaults, kind]
  | array next =>
    cases next with
    | none => cases v <;> simp only [checkTags, tagFaults, kind]
    | some next =>
      cases v with
      | array xs =>
        simp only [checkTags, tagFaults, kind]
        exact checkItems_eq (fun x member => items xs next rfl kind x member fuel (by omega)) path 0
      | _ => simp only [checkTags, tagFaults, kind]
  | _ => cases v <;> simp only [checkTags, tagFaults, kind]

theorem ReadAs.eq_of_checkTags_object (members : ∀ less < fuel, ∀ properties found,
      checkMembers (checkTags s less) path properties ms = some found → found = tagFaultsMembers s path properties ms)
    (kind : (s.node (s.concrete id)).kind = .object shape)
    (done : checkTags s fuel path id (.object ms) = some faults) : faults = tagFaults s path id (.object ms) := by
  simp only [tagFaults, kind, objectTag]
  cases bound : shape.model.bind s.model? with
  | none =>
    cases fuel with
    | zero => cases done
    | succ fuel =>
      simp only [checkTags, kind, bound] at done
      exact members fuel (Nat.lt_succ_self fuel) _ _ done
  | some b =>
    obtain ⟨n, last, less, settles⟩ := h.settles_of_checkTags unique kind bound done
    obtain ⟨m, fault, settled, checked⟩ := h.checkTags_settled unique settles kind bound
    obtain ⟨fuel, rfl⟩ := Nat.exists_eq_add_of_le' less
    rw [Nat.succ_eq_add_one, ← Nat.add_assoc, checked] at done
    obtain ⟨below, parts, rfl⟩ := Option.map_eq_some_iff.mp done
    dsimp only
    rw [members fuel (by omega) _ _ parts, settled s.models.length (settles.le_models h.formed)]
    cases fault <;> rfl

/-- A check that ends finds what recursion on the payload alone lists. -/
theorem ReadAs.eq_of_checkTags (done : checkTags s fuel path id v = some faults) :
    faults = tagFaults s path id v := by
  induction fuel using Nat.strongRecOn generalizing path id v faults with
  | ind fuel ih =>
    cases fuel with
    | zero => cases done
    | succ fuel =>
      cases kind : (s.node (s.concrete id)).kind with
      | object shape =>
        cases v with
        | object ms =>
          refine h.eq_of_checkTags_object unique (fun less fewer _ _ done => ?_) kind done
          exact eq_of_checkMembers (fun m _ path id found done => ih less fewer done) done
        | _ => simpa only [checkTags, tagFaults, kind, Option.some.injEq, eq_comm] using done
      | array items =>
        cases items with
        | none => cases v <;> simpa only [checkTags, tagFaults, kind, Option.some.injEq, eq_comm] using done
        | some items =>
          cases v with
          | array xs =>
            simp only [checkTags, kind] at done
            simp only [tagFaults, kind]
            exact eq_of_checkItems (fun x _ path found done => ih fuel (Nat.lt_succ_self fuel) done) done
          | _ => simpa only [checkTags, tagFaults, kind, Option.some.injEq, eq_comm] using done
      | _ => cases v <;> simpa only [checkTags, tagFaults, kind, Option.some.injEq, eq_comm] using done

end Ends
end Spec
end ApiPayload
