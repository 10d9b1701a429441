import ApiPayload.Proofs.Numbering
import ApiPayload.Proofs.References

/-
What is numbered. Numbering gives one number to each place that roots need, directly or by way of
one another, and to no other place. It fails only where one of those places is at fault: it never
runs out of depth, whatever circles references make.
-/
namespace ApiPayload

section Folds
variable {ε β γ : Type} {f : γ → β → Except ε γ} {P : γ → Prop} {xs : List β}

theorem Except.foldlM_ok (keeps : ∀ x ∈ xs, ∀ acc acc', P acc → f acc x = .ok acc' → P acc')
    {init last : γ} (start : P init) (done : xs.foldlM f init = .ok last) : P last := by
  induction xs generalizing init with
  | nil =>
    rw [List.foldlM_nil] at done
    cases done
    exact start
  | cons x rest ih =>
    rw [List.foldlM_cons] at done
    obtain ⟨between, first, later⟩ := Except.bind_eq_ok.mp done
    exact ih (fun y member => keeps y (List.mem_cons_of_mem x member))
      (keeps x List.mem_cons_self init between start first) later

theorem Except.foldlM_error (keeps : ∀ x ∈ xs, ∀ acc acc', P acc → f acc x = .ok acc' → P acc')
    {init : γ} {e : ε} (start : P init) (failed : xs.foldlM f init = .error e) :
    ∃ x ∈ xs, ∃ acc, P acc ∧ f acc x = .error e := by
  induction xs generalizing init with
  | nil =>
    rw [List.foldlM_nil] at failed
    cases failed
  | cons x rest ih =>
    rw [List.foldlM_cons] at failed
    rcases Except.bind_eq_error.mp failed with stopped | ⟨between, first, later⟩
    · exact ⟨x, List.mem_cons_self, init, start, stopped⟩
    · obtain ⟨y, member, stopped⟩ := ih (fun y member => keeps y (List.mem_cons_of_mem x member))
        (keeps x List.mem_cons_self init between start first) later
      exact ⟨y, List.mem_cons_of_mem x member, stopped⟩

end Folds

namespace Schema

variable {document reference raw : Json} {source p q : Pointer} {e : SpecError}

theorem target_error (failed : target source reference = .error e) :
    ∃ text, e = .unresolvable source text := by
  unfold target at failed
  split at failed
  · split at failed
    · split at failed
      · cases failed
      · cases failed
        exact ⟨_, rfl⟩
    · cases failed
      exact ⟨_, rfl⟩
  · cases failed
    exact ⟨_, rfl⟩

/-- The three ways to need a place: as a target, as a property of what is merged, as items. -/
theorem ok_mem_needs (needed : .ok q ∈ needs document p raw) : ∃ ms, raw = .object ms ∧
    ((∃ reference, Entries.get? "$ref" ms = some reference ∧ target p reference = .ok q) ∨
      (∃ r name, .fragment r ∈ layers document p ∧ (name, q) ∈ ownProperties document r) ∨
      itemsPlace? p ms = some q) := by
  unfold needs at needed
  split at needed
  · rename_i ms
    refine ⟨ms, rfl, ?_⟩
    split at needed
    · rename_i reference referring
      exact .inl ⟨reference, referring, (List.mem_singleton.mp needed).symm⟩
    · split at needed
      · obtain ⟨l, merged, needed⟩ := List.mem_flatMap.mp needed
        cases l with
        | fragment r =>
          obtain ⟨⟨name, place⟩, own, same⟩ := List.mem_map.mp needed
          cases same
          exact .inr (.inl ⟨r, name, merged, own⟩)
        | fault e => cases List.mem_singleton.mp needed
      · obtain ⟨place, listed, same⟩ := List.mem_map.mp needed
        cases same
        exact .inr (.inr (Option.mem_toList.mp listed))
      · cases needed
  · cases needed
  · cases List.mem_singleton.mp needed

theorem Passed.need {P : Pointer → Prop} (h : Passed document P) (here : P p)
    (found : p.find? document = some raw) (needed : .ok q ∈ needs document p raw) : P q := by
  obtain ⟨ms, rfl, ⟨reference, referring, aimed⟩ | ⟨r, name, merged, own⟩ | items⟩ :=
    ok_mem_needs needed
  · exact h.named q (target_referenced aimed (reference_within found referring))
  · exact h.property (h.layer here merged) own
  · obtain ⟨rfl, v, listed⟩ := items_place items
    exact h.child here found listed (.inl (by decide))

/-- Reading was cut off before its end. -/
def cutOff : SpecError → Prop
  | .invalidSchema _ .endless => True
  | _ => False

theorem unalias_error {fuel : Nat} (failed : unalias document source fuel p = .error e) :
    ¬ cutOff e := by
  induction fuel generalizing p with
  | zero =>
    cases failed
    exact id
  | succ fuel ih =>
    rw [unalias] at failed
    split at failed
    · cases failed
    · rcases Except.bind_eq_error.mp failed with failed | ⟨next, _, failed⟩
      · obtain ⟨text, rfl⟩ := target_error failed
        exact id
      · exact ih failed

theorem checked_error {place : Pointer} (failed : (match place.find? document with
    | some (.object _) => (.ok place : Except SpecError Pointer)
    | _ => .error (.unresolvable p place.label)) = .error e) : ¬ cutOff e := by
  split at failed
  · cases failed
  · cases failed
    exact id

theorem partPlace_error {i : Nat} {part : Json} (failed : partPlace document p i part = .error e) :
    ¬ cutOff e := by
  unfold partPlace at failed
  cases referring : part.member? "$ref" with
  | none =>
    rw [referring] at failed
    rcases Except.bind_eq_error.mp failed with failed | ⟨place, _, failed⟩
    · cases failed
    · exact checked_error failed
  | some reference =>
    rw [referring] at failed
    rcases Except.bind_eq_error.mp failed with failed | ⟨aim, _, failed⟩
    · obtain ⟨text, rfl⟩ := target_error failed
      exact id
    · rcases Except.bind_eq_error.mp failed with failed | ⟨place, _, failed⟩
      · exact unalias_error failed
      · exact checked_error failed

theorem fault_mem_layers (merged : .fault e ∈ layers document p) : ¬ cutOff e := by
  rcases Relation.ReflTransGen.cases_tail (mem_layers.mp merged) with same | ⟨between, _, part⟩
  · cases same
  · cases between with
    | fault other => cases part
    | fragment r =>
      obtain ⟨⟨part, i⟩, _, made⟩ := List.mem_map.mp part
      dsimp only at made
      split at made
      · cases made
      · rename_i failed
        cases made
        exact partPlace_error failed

theorem error_mem_needs (failed : .error e ∈ needs document p raw) : ¬ cutOff e := by
  unfold needs at failed
  split at failed
  · split at failed
    · obtain ⟨text, rfl⟩ := target_error (List.mem_singleton.mp failed).symm
      exact id
    · split at failed
      · obtain ⟨l, merged, failed⟩ := List.mem_flatMap.mp failed
        cases l with
        | fragment r =>
          obtain ⟨_, _, same⟩ := List.mem_map.mp failed
          cases same
        | fault other =>
          cases List.mem_singleton.mp failed
          exact fault_mem_layers merged
      · obtain ⟨_, _, same⟩ := List.mem_map.mp failed
        cases same
      · cases failed
  · cases failed
  · cases List.mem_singleton.mp failed
    exact id

end Schema

namespace Spec
open Schema

variable {document : Json} {order order' : List Pointer} {p q r : Pointer} {e : SpecError}

/-- What stands at one place needs another. -/
def Needs (document : Json) (p q : Pointer) : Prop :=
  ∃ raw, p.find? document = some raw ∧ .ok q ∈ needs document p raw

def Needed (document : Json) : Pointer → Pointer → Prop := Relation.ReflTransGen (Needs document)

/-- What is needed by what has a property has it, if it is passed on. -/
theorem passed_of_needed {P : Pointer → Prop} (h : Passed document P) (here : P p)
    (needed : Needed document p q) : P q := by
  induction needed with
  | refl => exact here
  | tail _ need ih =>
    obtain ⟨raw, found, needed⟩ := need
    exact h.need ih found needed

/-- Nothing stands at a place, or what stands there needs something that cannot be had. -/
inductive FaultAt (document : Json) (p : Pointer) : SpecError → Prop where
  | missing (source : Pointer) (absent : p.find? document = none) :
      FaultAt document p (.unresolvable source p.label)
  | need {raw : Json} {e : SpecError} (found : p.find? document = some raw)
      (failed : .error e ∈ needs document p raw) : FaultAt document p e

theorem FaultAt.not_cutOff (h : FaultAt document p e) : ¬ cutOff e := by
  cases h with
  | missing => exact id
  | need _ failed => exact error_mem_needs failed

/-- Places that a reading can come to and that have no number yet. -/
abbrev unnumbered (document : Json) (order : List Pointer) : Nat :=
  Walk.left (spots document) ⟨order, []⟩

theorem unnumbered_next {between : List Pointer} (standing : Standing document p) (fresh : p ∉ order)
    (kept : ∀ q ∈ order ++ [p], q ∈ between) :
    unnumbered document between < unnumbered document order := by
  have less : Walk.left (spots document) ⟨p :: order, []⟩ < unnumbered document order :=
    Walk.left_lt (w := ⟨order, []⟩) standing.spot fresh
  have fewer : unnumbered document between ≤ Walk.left (spots document) ⟨p :: order, []⟩ := by
    refine Walk.left_le fun q member => kept q ?_
    rcases List.mem_cons.mp member with rfl | member
    · exact List.mem_append_right _ (List.mem_singleton_self q)
    · exact List.mem_append_left _ member
  omega

theorem number_error {fuel : Nat} {source : Pointer} (standing : Standing document p)
    (deep : unnumbered document order < fuel)
    (failed : number document fuel source order p = .error e) :
    ∃ q, Needed document p q ∧ FaultAt document q e := by
  induction fuel generalizing source order p with
  | zero => omega
  | succ fuel ih =>
    rw [number] at failed
    split at failed
    · cases failed
    · rename_i fresh
      split at failed
      · rename_i absent
        cases failed
        exact ⟨p, .refl, .missing source absent⟩
      · rename_i raw found
        have keeps : ∀ need ∈ needs document p raw, ∀ acc acc',
            (∀ q ∈ order ++ [p], q ∈ acc) →
            (do number document fuel p acc (← need)) = .ok acc' → ∀ q ∈ order ++ [p], q ∈ acc' := by
          intro need _ acc acc' kept step q member
          obtain ⟨_, _, step⟩ := Except.bind_eq_ok.mp step
          exact (number_extended step).1.kept q (kept q member)
        obtain ⟨need, needed, acc, kept, step⟩ :=
          Except.foldlM_error keeps (fun q member => member) failed
        cases need with
        | error other =>
          cases step
          exact ⟨p, .refl, .need found needed⟩
        | ok next =>
          have fewer := unnumbered_next standing fresh kept
          have below := (standing_passed document).need standing found needed
          obtain ⟨q, reached, fault⟩ := ih below (by omega) step
          exact ⟨q, .head ⟨raw, found, needed⟩ reached, fault⟩

/-- What numbering adds is needed, and nothing is added twice. -/
theorem number_adds {fuel : Nat} {source : Pointer}
    (numbered : number document fuel source order p = .ok order') :
    (∀ q ∈ order', q ∈ order ∨ Needed document p q) ∧ (order.Nodup → order'.Nodup) := by
  induction fuel generalizing source order order' p with
  | zero => cases numbered
  | succ fuel ih =>
    rw [number] at numbered
    split at numbered
    · cases numbered
      exact ⟨fun q member => .inl member, id⟩
    · rename_i fresh
      split at numbered
      · cases numbered
      · rename_i raw found
        have keeps : ∀ need ∈ needs document p raw, ∀ acc acc',
            ((∀ q ∈ acc, q ∈ order ∨ Needed document p q) ∧ (order.Nodup → acc.Nodup)) →
            (do number document fuel p acc (← need)) = .ok acc' →
            (∀ q ∈ acc', q ∈ order ∨ Needed document p q) ∧ (order.Nodup → acc'.Nodup) := by
          rintro need needed acc acc' ⟨reached, distinct⟩ step
          obtain ⟨next, rfl, step⟩ := Except.bind_eq_ok.mp step
          obtain ⟨more, still⟩ := ih step
          refine ⟨fun q member => ?_, fun once => still (distinct once)⟩
          rcases more q member with member | below
          · exact reached q member
          · exact .inr (.head ⟨raw, found, needed⟩ below)
        have start : (∀ q ∈ order ++ [p], q ∈ order ∨ Needed document p q) ∧
            (order.Nodup → (order ++ [p]).Nodup) := by
          refine ⟨fun q member => ?_, fun once => ?_⟩
          · rcases List.mem_append.mp member with member | last
            · exact .inl member
            · obtain rfl := List.mem_singleton.mp last
              exact .inr .refl
          · refine List.nodup_append.mpr ⟨once, List.nodup_singleton p, ?_⟩
            rintro a member b last rfl
            exact fresh (List.mem_singleton.mp last ▸ member)
        exact Except.foldlM_ok keeps start numbered

theorem numbering_adds (numbered : numbering document = .ok order) :
    (∀ q ∈ order, ∃ r ∈ roots document, Needed document r q) ∧ order.Nodup := by
  have keeps : ∀ r ∈ roots document, ∀ acc acc',
      ((∀ q ∈ acc, ∃ r ∈ roots document, Needed document r q) ∧ acc.Nodup) →
      number document (placeLimit document) r acc r = .ok acc' →
      (∀ q ∈ acc', ∃ r ∈ roots document, Needed document r q) ∧ acc'.Nodup := by
    rintro r root acc acc' ⟨reached, once⟩ step
    obtain ⟨more, still⟩ := number_adds step
    refine ⟨fun q member => ?_, still once⟩
    rcases more q member with member | below
    · exact reached q member
    · exact ⟨r, root, below⟩
  have start : (∀ q ∈ ([] : List Pointer), ∃ r ∈ roots document, Needed document r q) ∧
      ([] : List Pointer).Nodup := ⟨fun _ none => (nomatch none), List.nodup_nil⟩
  exact Except.foldlM_ok keeps start numbered

/-- The numbered places are those that roots need. -/
theorem mem_numbering (numbered : numbering document = .ok order) :
    q ∈ order ↔ ∃ r ∈ roots document, Needed document r q := by
  refine ⟨(numbering_adds numbered).1 q, ?_⟩
  rintro ⟨r, root, needed⟩
  obtain ⟨_, rooted⟩ := foldlM_extended (P := fun p order => p ∈ order)
    (fun p _ _ h kept => kept p h) (fun _ _ _ step => number_extended step) numbered
  induction needed with
  | refl => exact rooted r root
  | tail _ need ih =>
    obtain ⟨raw, found, needed⟩ := need
    obtain ⟨raw', found', provided⟩ := provided_of_numbered numbered ih
    obtain rfl := Option.some.inj (found.symm.trans found')
    obtain ⟨q, same, listed⟩ := provided _ needed
    cases same
    exact listed

theorem numbering_error (failed : numbering document = .error e) :
    ∃ r ∈ roots document, ∃ q, Needed document r q ∧ FaultAt document q e := by
  obtain ⟨r, root, acc, _, step⟩ :=
    Except.foldlM_error (P := fun _ => True) (fun _ _ _ _ _ _ => trivial) trivial failed
  have few : unnumbered document acc ≤ (spots document).length := List.countP_le_length
  have room := length_spots document
  exact ⟨r, root, number_error (standing_start (List.mem_append_left _ root)) (by omega) step⟩

/-- Numbering succeeds if no place that a root needs is at fault. -/
theorem numbering_ok_iff : (∃ order, numbering document = .ok order) ↔
    ∀ r ∈ roots document, ∀ q, Needed document r q → ∀ e, ¬ FaultAt document q e := by
  constructor
  · rintro ⟨order, numbered⟩ r root q needed e fault
    obtain ⟨raw, found, provided⟩ :=
      provided_of_numbered numbered ((mem_numbering numbered).mpr ⟨r, root, needed⟩)
    cases fault with
    | missing source absent =>
      rw [found] at absent
      cases absent
    | need found' failed =>
      obtain rfl := Option.some.inj (found.symm.trans found')
      obtain ⟨_, same, _⟩ := provided _ failed
      cases same
  · intro faultless
    cases ended : numbering document with
    | ok order => exact ⟨order, rfl⟩
    | error e =>
      obtain ⟨r, root, q, needed, fault⟩ := numbering_error ended
      exact absurd fault (faultless r root q needed e)

end Spec

section Links

theorem Entries.mem_of_mem_insert {κ α : Type} [DecidableEq κ] {key : κ} {value : α}
    {e : κ × α} {es : List (κ × α)} (member : e ∈ Entries.insert key value es) :
    e = (key, value) ∨ e ∈ es := by
  induction es with
  | nil => exact .inl (List.mem_singleton.mp member)
  | cons first rest ih =>
    obtain ⟨other, a⟩ := first
    unfold Entries.insert at member
    split at member
    · rename_i same
      rcases List.mem_cons.mp member with here | member
      · exact .inl (by rw [here, same])
      · exact .inr (List.mem_cons_of_mem _ member)
    · rcases List.mem_cons.mp member with here | member
      · exact .inr (here ▸ List.mem_cons_self)
      · exact (ih member).imp_right (List.mem_cons_of_mem _)

namespace Schema

open Spec

variable {α β : Type} {document raw : Json} {naming : Naming} {order : List Pointer} {p q : Pointer}
  {ms : Members}

/-- The schemas that a kind names. -/
def Kind.links : Kind α → List α
  | array items => items.toList
  | object shape => shape.properties.map (·.2)
  | ref target => [target]
  | _ => []

theorem Kind.links_map (f : α → β) (k : Kind α) : (k.map f).links = k.links.map f := by
  cases k with
  | array items => cases items <;> rfl
  | object shape =>
    simp only [map, links, Shape.map, Entries.mapValues, List.map_map]
    rfl
  | _ => rfl

theorem Kind.map_congr {f g : α → β} {k : Kind α} (same : ∀ l ∈ k.links, f l = g l) :
    k.map f = k.map g := by
  cases k with
  | array items =>
    cases items with
    | none => rfl
    | some l => simp only [map, Option.map_some, same l (List.mem_singleton_self l)]
  | object shape =>
    have entries : ∀ e ∈ shape.properties, (e.1, f e.2) = (e.1, g e.2) := by
      intro e member
      rw [same e.2 (List.mem_map_of_mem member)]
    simp only [map, Shape.map, Entries.mapValues, List.map_congr_left entries]
  | ref target => simp only [map, same target (List.mem_singleton_self target)]
  | _ => rfl

/-- The own properties of places, later ones in the place of earlier ones of the same name. -/
def mergedProperties (document : Json) (places : List Pointer) : List (String × Pointer) :=
  places.foldl (fun acc q =>
    (ownProperties document q).foldl (fun acc e => Entries.insert e.1 e.2 acc) acc) []

theorem mem_mergedProperties {places : List Pointer} {e : String × Pointer}
    (member : e ∈ mergedProperties document places) :
    ∃ q ∈ places, e ∈ ownProperties document q := by
  have inserted : ∀ (es acc : List (String × Pointer)),
      e ∈ es.foldl (fun acc e => Entries.insert e.1 e.2 acc) acc → e ∈ acc ∨ e ∈ es := by
    intro es
    induction es with
    | nil => exact fun acc member => .inl member
    | cons first rest ih =>
      intro acc member
      rcases ih _ member with member | member
      · rcases Entries.mem_of_mem_insert member with rfl | member
        · exact .inr List.mem_cons_self
        · exact .inl member
      · exact .inr (List.mem_cons_of_mem _ member)
  have merged : ∀ (places : List Pointer) (acc : List (String × Pointer)),
      e ∈ places.foldl (fun acc q =>
        (ownProperties document q).foldl (fun acc e => Entries.insert e.1 e.2 acc) acc) acc →
      e ∈ acc ∨ ∃ q ∈ places, e ∈ ownProperties document q := by
    intro places
    induction places with
    | nil => exact fun acc member => .inl member
    | cons q rest ih =>
      intro acc member
      rcases ih _ member with member | ⟨r, listed, own⟩
      · rcases inserted _ _ member with member | own
        · exact .inl member
        · exact .inr ⟨q, List.mem_cons_self, own⟩
      · exact .inr ⟨r, List.mem_cons_of_mem q listed, own⟩
  rcases merged places [] member with none | found
  · cases none
  · exact found

/-- All that a fragment links to is needed. -/
theorem links_needed (linked : q ∈ (kind document naming p raw).links) :
    .ok q ∈ needs document p raw := by
  cases raw with
  | object ms =>
    cases referring : Entries.get? "$ref" ms with
    | some reference =>
      simp only [kind, needs, referring] at linked ⊢
      split at linked
      · rename_i place aimed
        rw [List.mem_singleton.mp linked, aimed]
        exact List.mem_singleton_self _
      · cases linked
    | none =>
      simp only [kind, needs, referring] at linked ⊢
      split at linked
      · cases linked
      · rename_i declared
        obtain ⟨⟨name, place⟩, listed, rfl⟩ := List.mem_map.mp linked
        obtain ⟨r, merged, own⟩ := mem_mergedProperties listed
        simp only [declared]
        refine List.mem_flatMap.mpr ⟨_, mem_places.mp merged, ?_⟩
        exact List.mem_map.mpr ⟨_, own, rfl⟩
      · rename_i declared
        simp only [declared]
        exact List.mem_map_of_mem linked
      · cases linked
      · split at linked <;> cases linked
  | _ => cases linked

theorem links_numbered (provided : Provided document order p) :
    ∀ q ∈ (kind document naming p ((p.find? document).getD .null)).links, q ∈ order := by
  intro q linked
  obtain ⟨raw, found, provided⟩ := provided
  rw [found] at linked
  obtain ⟨_, same, listed⟩ := provided _ (links_needed linked)
  cases same
  exact listed

/-- A fragment for which all is provided reads the same however many numbers there are. -/
theorem nodeAt_append (provided : Provided document order p) (more : List Pointer) :
    nodeAt document naming (order ++ more) p = nodeAt document naming order p := by
  have same : ∀ q ∈ (kind document naming p ((p.find? document).getD .null)).links,
      (order ++ more).idxOf q = order.idxOf q := by
    intro q linked
    rw [List.idxOf_append, if_pos (links_numbered provided q linked)]
  simp only [nodeAt, Kind.map_congr same]

end Schema
end Links
end ApiPayload
