import ApiPayload.Proofs.Assembly

/-
Merging and reading into an arena. The places that merging visits are the layers of the fragment, in
their order, and what it asks for is what the layers need; so a fragment reads as its node.
-/
namespace ApiPayload

theorem Entries.mapValues_insert {κ α β : Type} [DecidableEq κ] (f : α → β) (key : κ) (value : α)
    (es : List (κ × α)) :
    Entries.mapValues f (Entries.insert key value es) =
      Entries.insert key (f value) (Entries.mapValues f es) := by
  induction es with
  | nil => rfl
  | cons e rest ih =>
    obtain ⟨other, a⟩ := e
    by_cases same : other = key
    · simp [Entries.insert, Entries.mapValues, same]
    · simpa [Entries.insert, Entries.mapValues, same] using ih

namespace Schema

open Spec

section Layers
variable {α : Type} [DecidableEq α]

omit [DecidableEq α] in
theorem Walk.foldl_append {f : Walk α → α → Walk α}
    (each : ∀ w x, ∃ new, (f w x).done = w.done ++ new) (xs : List α) (w : Walk α) :
    ∃ new, (xs.foldl f w).done = w.done ++ new := by
  induction xs generalizing w with
  | nil => exact ⟨[], (List.append_nil _).symm⟩
  | cons x rest ih =>
    obtain ⟨new, first⟩ := each w x
    obtain ⟨more, later⟩ := ih (f w x)
    exact ⟨new ++ more, by rw [List.foldl_cons, later, first, List.append_assoc]⟩

theorem Walk.visit_append (next : α → List α) (fuel : Nat) (w : Walk α) (x : α) :
    ∃ new, (Walk.visit next fuel w x).done = w.done ++ new := by
  induction fuel generalizing w x with
  | zero => exact ⟨[], (List.append_nil _).symm⟩
  | succ fuel ih =>
    rw [Walk.visit]
    split
    · exact ⟨[], (List.append_nil _).symm⟩
    · obtain ⟨new, same⟩ := Walk.foldl_append ih (next x) ⟨x :: w.seen, w.done⟩
      refine ⟨new ++ [x], ?_⟩
      show ((next x).foldl (Walk.visit next fuel) ⟨x :: w.seen, w.done⟩).done ++ [x] = _
      rw [same, List.append_assoc]

/-- What a layer needs itself. -/
def Layer.needs (document : Json) : Layer → List (Except SpecError Pointer)
  | .fragment q => (ownProperties document q).map fun e => .ok e.2
  | .fault e => [.error e]

variable {document : Json} {p q : Pointer} {order : List Pointer} {fuel : Nat}

def numberNeeds (document : Json) (fuel : Nat) (p : Pointer) (order : List Pointer)
    (needs : List (Except SpecError Pointer)) : Except SpecError (List Pointer) :=
  needs.foldlM (fun order need => do number document fuel p order (← need)) order

theorem numberNeeds_ok (more : List (Except SpecError Pointer)) :
    numberNeeds document fuel p order (.ok q :: more) =
      number document fuel p order q >>= fun order' => numberNeeds document fuel p order' more :=
  rfl

theorem numberNeeds_append (needs more : List (Except SpecError Pointer)) :
    numberNeeds document fuel p order (needs ++ more) =
      numberNeeds document fuel p order needs >>= fun order' =>
        numberNeeds document fuel p order' more :=
  List.foldlM_append

theorem needs_layers (ms : Members) (direct : Entries.get? "$ref" ms = none)
    (object : declaredType ms = some "object") :
    needs document p (.object ms) = (layers document p).flatMap (Layer.needs document) := by
  simp only [needs, direct, object]
  refine congrArg (fun f => List.flatMap f (layers document p)) (funext fun l => ?_)
  cases l <;> rfl

theorem number_source {raw : Json} (found : q.find? document = some raw) (source other : Pointer) :
    number document fuel source order q = number document fuel other order q := by
  cases fuel with
  | zero => rfl
  | succ fuel => simp only [number, found]

end Layers

section Merge
variable {document : Json} {naming : Naming} {limit fuel fuel' depth : Nat} {p q owner : Pointer}
  {ask : Pointer → Pointer → Builder Id} {order order' : List Pointer} {a a' : Arena}
  {w : Walk Layer} {acc : Merged}

/-- The answer to a request is the number of the place. -/
def Answers (document : Json) (naming : Naming) (depth : Nat) (ask : Pointer → Pointer → Builder Id) :
    Prop :=
  ∀ source p order a, a.Numbers order → Ends document naming order a
    (fun order' id => p ∈ order' ∧ id = order'.idxOf p) (ask source p a)
    (number document depth source order p)

abbrev listedPlaces (w : Walk Layer) : List Pointer := w.done.filterMap Layer.place?

/-- What was merged while layers were walked. -/
structure Tracks (document : Json) (w : Walk Layer) (order : List Pointer) (acc : Merged) : Prop where
  visited : ∀ q, q ∈ acc.visited ↔ .fragment q ∈ w.seen
  clean : ∀ e, .fault e ∉ w.seen
  numbered : ∀ e ∈ mergedProperties document (listedPlaces w), e.2 ∈ order
  properties : acc.properties =
    Entries.mapValues order.idxOf (mergedProperties document (listedPlaces w))
  required : acc.required = NameSet.ofList ((listedPlaces w).flatMap (ownRequired document))

theorem mapValues_kept {props : List (String × Pointer)} (known : ∀ e ∈ props, e.2 ∈ order)
    (filled : Filled document naming order a order' a') :
    Entries.mapValues order'.idxOf props = Entries.mapValues order.idxOf props := by
  refine List.map_congr_left fun e member => ?_
  exact congrArg (Prod.mk e.1) (filled.kept (known e member)).2

theorem Tracks.filled (h : Tracks document w order acc)
    (filled : Filled document naming order a order' a') : Tracks document w order' acc :=
  ⟨h.visited, h.clean, fun e member => (filled.kept (h.numbered e member)).1,
    h.properties.trans (mapValues_kept h.numbered filled).symm, h.required⟩

def ownPlace (q : Pointer) (name : String) : Pointer := (q.child "properties").child name

def mergeOwn (ask : Pointer → Pointer → Builder Id) (q : Pointer) (acc : Merged) (name : String) :
    Builder Merged := do
  let id ← ask q (ownPlace q name)
  return { acc with properties := Entries.insert name id acc.properties }

/-- Properties of the names given, each at its own place. -/
def withOwn (q : Pointer) (names : List String) (props : List (String × Pointer)) :
    List (String × Pointer) :=
  names.foldl (fun props name => Entries.insert name (ownPlace q name) props) props

theorem own_ends (asks : Answers document naming depth ask) {names : List String}
    {props : List (String × Pointer)} (numbers : a.Numbers order)
    (present : ∀ name ∈ names, ∃ v, (ownPlace q name).find? document = some v)
    (known : ∀ e ∈ props, e.2 ∈ order)
    (same : acc.properties = Entries.mapValues order.idxOf props) :
    Ends document naming order a
      (fun order' v => (∀ e ∈ withOwn q names props, e.2 ∈ order') ∧
        v = { acc with properties := Entries.mapValues order'.idxOf (withOwn q names props) })
      (names.foldlM (mergeOwn ask q) acc a)
      (numberNeeds document depth p order (names.map fun name => .ok (ownPlace q name))) := by
  induction names generalizing props acc a order with
  | nil => exact .ok numbers (.same rfl) ⟨known, by rw [withOwn, List.foldl_nil, ← same]⟩
  | cons name rest ih =>
    obtain ⟨v, here⟩ := present name List.mem_cons_self
    have first := asks q (ownPlace q name) order a numbers
    rw [number_source here q p] at first
    have step := first.map (fun id => { acc with properties := Entries.insert name id acc.properties })
      (Q := fun order' acc' => ownPlace q name ∈ order' ∧ acc' = { acc with
        properties := Entries.insert name (order'.idxOf (ownPlace q name)) acc.properties })
      fun _ _ _ ⟨listed, same⟩ => ⟨listed, by rw [same]⟩
    rw [List.foldlM_cons, List.map_cons, numberNeeds_ok]
    refine step.bind fun acc' a' order' numbers filled ⟨listed, here⟩ => ?_
    subst here
    have known' : ∀ e ∈ Entries.insert name (ownPlace q name) props, e.2 ∈ order' := by
      intro e member
      rcases Entries.mem_of_mem_insert member with rfl | member
      · exact listed
      · exact (filled.kept (known e member)).1
    have same' : (⟨Entries.insert name (order'.idxOf (ownPlace q name)) acc.properties, acc.required,
        acc.visited⟩ : Merged).properties =
        Entries.mapValues order'.idxOf (Entries.insert name (ownPlace q name) props) := by
      rw [Entries.mapValues_insert, mapValues_kept known filled, ← same]
    exact ih numbers (fun other member => present other (List.mem_cons_of_mem name member)) known' same'

theorem ownProperties_eq : ownProperties document q =
    (propertyNames (membersAt document q)).map fun name => (name, ownPlace q name) := by
  unfold ownProperties propertyNames
  cases Entries.get? "properties" (membersAt document q) with
  | none => rfl
  | some v =>
    cases v with
    | object ps =>
      simp only [Entries.keys, List.map_map]
      rfl
    | _ => rfl

theorem withOwn_eq (props : List (String × Pointer)) :
    (ownProperties document q).foldl (fun props e => Entries.insert e.1 e.2 props) props =
      withOwn q (propertyNames (membersAt document q)) props := by
  rw [ownProperties_eq, List.foldl_map, withOwn]

theorem own_needs : Layer.needs document (.fragment q) =
    (propertyNames (membersAt document q)).map fun name => .ok (ownPlace q name) := by
  rw [Layer.needs, ownProperties_eq, List.map_map]
  rfl

theorem own_present {name : String} (own : name ∈ propertyNames (membersAt document q)) :
    ∃ v, (ownPlace q name).find? document = some v := by
  have listed : (name, ownPlace q name) ∈ ownProperties document q := by
    rw [ownProperties_eq]
    exact List.mem_map_of_mem own
  obtain ⟨_, _, v, _, _, _, _, found⟩ := own_property listed
  exact ⟨v, found⟩

def Layer.ofPart (document : Json) (q : Pointer) (part : Json × Nat) : Layer :=
  match partPlace document q part.2 part.1 with
  | .ok place => .fragment place
  | .error e => .fault e

def mergePart (document : Json) (limit : Nat) (ask : Pointer → Pointer → Builder Id) (owner : Pointer)
    (fuel : Nat) (q : Pointer) (acc : Merged) (part : Json × Nat) : Builder Merged := do
  let place ← Builder.ofExcept (partAt document limit q part.2 part.1)
  match place.find? document with
  | some (.object own) => merge document limit ask owner fuel own place acc
  | _ => throw (.unresolvable q place.label)

theorem mergePart_eq {part : Json × Nat} (deep : placeLimit document ≤ limit)
    (present : (allOf (membersAt document q))[part.2]? = some part.1) :
    mergePart document limit ask owner fuel q acc part =
      match partPlace document q part.2 part.1 with
      | .ok place => merge document limit ask owner fuel (membersAt document place) place acc
      | .error e => throw e := by
  rw [partAt_eq deep present, mergePart]
  cases partAt document limit q part.2 part.1 with
  | error e => rfl
  | ok place =>
    show (match place.find? document with
      | some (.object own) => merge document limit ask owner fuel own place acc
      | _ => throw (SpecError.unresolvable q place.label)) =
        match (match place.find? document with
          | some (.object _) => .ok place
          | _ => .error (.unresolvable q place.label) : Except SpecError Pointer) with
        | .ok place => _
        | .error e => throw e
    cases found : place.find? document with
    | none => rfl
    | some v =>
      cases v with
      | object own =>
        show _ = merge document limit ask owner fuel (membersAt document place) place acc
        rw [membersAt, found]
      | _ => rfl

theorem merge_succ (ms : Members) : merge document limit ask owner (fuel + 1) ms q acc =
    if q ∈ acc.visited then pure acc
    else modify (Arena.note (.merge owner q)) >>= fun _ =>
      (allOf ms).zipIdx.foldlM (mergePart document limit ask owner fuel q)
        { acc with visited := q :: acc.visited } >>= fun acc =>
      (propertyNames ms).foldlM (mergeOwn ask q) acc >>= fun acc =>
      pure { acc with required := (requiredNames ms).foldl (fun s n => s.insert n) acc.required } :=
  rfl

abbrev mergeRooms (document : Json) (owner : Pointer) : List Layer :=
  (rooms document owner).map .fragment

/-- Merging a fragment asks for what the layers below it need that were not walked before. -/
def Merges (document : Json) (naming : Naming) (limit depth : Nat) (owner : Pointer)
    (ask : Pointer → Pointer → Builder Id) (fuel fuel' : Nat) : Prop :=
  ∀ q w acc a order new, Layer.Inside document owner (.fragment q) →
    Walk.left (mergeRooms document owner) w < fuel → Walk.left (mergeRooms document owner) w < fuel' →
    a.Numbers order → Tracks document w order acc →
    (Walk.visit (Layer.parts document) fuel' w (.fragment q)).done = w.done ++ new →
    Ends document naming order a (Tracks document (Walk.visit (Layer.parts document) fuel' w (.fragment q)))
      (merge document limit ask owner fuel (membersAt document q) q acc a)
      (numberNeeds document depth owner order (new.flatMap (Layer.needs document)))

theorem Merges.parts (h : Merges document naming limit depth owner ask fuel fuel')
    (deep : placeLimit document ≤ limit) (here : Layer.Inside document owner (.fragment q))
    {parts : List (Json × Nat)}
    (listed : ∀ part ∈ parts, (allOf (membersAt document q))[part.2]? = some part.1)
    (few : parts ≠ [] → Walk.left (mergeRooms document owner) w < fuel ∧
      Walk.left (mergeRooms document owner) w < fuel') (numbers : a.Numbers order)
    (tracks : Tracks document w order acc) {new : List Layer}
    (done : ((parts.map (Layer.ofPart document q)).foldl
      (Walk.visit (Layer.parts document) fuel') w).done = w.done ++ new) :
    Ends document naming order a
      (Tracks document ((parts.map (Layer.ofPart document q)).foldl
        (Walk.visit (Layer.parts document) fuel') w))
      ((parts.foldlM (mergePart document limit ask owner fuel q) acc : Builder Merged) a)
      (numberNeeds document depth owner order (new.flatMap (Layer.needs document))) := by
  induction parts generalizing w acc a order new with
  | nil =>
    have nothing : new = [] := List.self_eq_append_right.mp done
    subst nothing
    exact .ok numbers (.same rfl) tracks
  | cons part rest ih =>
    have present := listed part List.mem_cons_self
    obtain ⟨few, few'⟩ := few (List.cons_ne_nil part rest)
    rw [List.map_cons, List.foldl_cons] at done ⊢
    obtain ⟨first, head⟩ := Walk.visit_append (Layer.parts document) fuel' w (Layer.ofPart document q part)
    obtain ⟨others, tail⟩ := Walk.foldl_append (Walk.visit_append (Layer.parts document) fuel')
      (rest.map (Layer.ofPart document q))
      (Walk.visit (Layer.parts document) fuel' w (Layer.ofPart document q part))
    have all : new = first ++ others := by
      rw [tail, head, List.append_assoc] at done
      exact (List.append_cancel_left done).symm
    rw [all, List.flatMap_append, numberNeeds_append, List.foldlM_cons]
    cases placed : partPlace document q part.2 part.1 with
    | error e =>
      have layer : Layer.ofPart document q part = .fault e := by rw [Layer.ofPart, placed]
      obtain ⟨fuel', rfl⟩ := Nat.exists_eq_succ_of_ne_zero (Nat.ne_of_gt (Nat.zero_lt_of_lt few'))
      rw [layer, Walk.visit, if_neg (tracks.clean e)] at head
      obtain rfl : [.fault e] = first := List.append_cancel_left head
      have failed : mergePart document limit ask owner fuel q acc part a = .error e a := by
        rw [mergePart_eq deep present, placed]
        rfl
      exact .error_bind failed _
    | ok place =>
      have layer : Layer.ofPart document q part = .fragment place := by rw [Layer.ofPart, placed]
      have inside := inside_part here present placed
      rw [layer] at head tail ⊢
      have step := h place w acc a order first inside few few' numbers tracks head
      rw [mergePart_eq deep present, placed]
      obtain ⟨grown, _⟩ := Walk.visit_grown (layers_confined document owner) inside few'
      have fewer : Walk.left (mergeRooms document owner) _ ≤ Walk.left _ w := Walk.left_le grown.seen
      exact step.bind fun acc' a' order' numbers filled tracks =>
        ih (fun part member => listed part (List.mem_cons_of_mem _ member))
          (fun _ => ⟨by omega, by omega⟩) numbers tracks tail

theorem Tracks.enter (h : Tracks document w order acc) (q : Pointer) : Tracks document
    ⟨.fragment q :: w.seen, w.done⟩ order { acc with visited := q :: acc.visited } := by
  refine ⟨fun r => ?_, fun e member => ?_, h.numbered, h.properties, h.required⟩
  · rw [List.mem_cons, List.mem_cons, h.visited, Layer.fragment.injEq]
  · rcases List.mem_cons.mp member with same | member
    · cases same
    · exact h.clean e member

theorem Tracks.list (h : Tracks document w order acc) (q : Pointer)
    (known : ∀ e ∈ withOwn q (propertyNames (membersAt document q))
      (mergedProperties document (listedPlaces w)), e.2 ∈ order') : Tracks document
    ⟨w.seen, w.done ++ [.fragment q]⟩ order'
    { acc with
      properties := Entries.mapValues order'.idxOf (withOwn q
        (propertyNames (membersAt document q)) (mergedProperties document (listedPlaces w)))
      required := (requiredNames (membersAt document q)).foldl (fun s n => s.insert n) acc.required } := by
  have listed : listedPlaces (⟨w.seen, w.done ++ [.fragment q]⟩ : Walk Layer) =
      listedPlaces w ++ [q] := List.filterMap_append
  have merged : mergedProperties document (listedPlaces w ++ [q]) =
      withOwn q (propertyNames (membersAt document q))
        (mergedProperties document (listedPlaces w)) := by
    rw [mergedProperties, List.foldl_append, List.foldl_cons, List.foldl_nil, withOwn_eq]
    rfl
  refine ⟨h.visited, h.clean, ?_, ?_, ?_⟩
  · rw [listed, merged]
    exact known
  · rw [listed, merged]
  · rw [listed, List.flatMap_append, NameSet.ofList, List.foldl_append, ← NameSet.ofList, ← h.required,
      List.flatMap_singleton]
    rfl

theorem Merges.succ (asks : Answers document naming depth ask) (deep : placeLimit document ≤ limit)
    (h : Merges document naming limit depth owner ask fuel fuel') :
    Merges document naming limit depth owner ask (fuel + 1) (fuel' + 1) := by
  intro q w acc a order new here few few' numbers tracks done
  rw [Walk.visit] at done ⊢
  rw [merge_succ]
  by_cases again : q ∈ acc.visited
  · rw [if_pos ((tracks.visited q).mp again)] at done ⊢
    rw [if_pos again]
    obtain rfl : new = [] := List.self_eq_append_right.mp done
    exact .ok numbers (.same rfl) tracks
  · have fresh : .fragment q ∉ w.seen := fun seen => again ((tracks.visited q).mpr seen)
    rw [if_neg fresh] at done ⊢
    rw [if_neg again, Builder.modify_bind]
    have noted : (a.note (.merge owner q)).slots = a.slots := rfl
    refine Ends.start ?_ noted
    have parts : Layer.parts document (.fragment q) =
        (allOf (membersAt document q)).zipIdx.map (Layer.ofPart document q) := rfl
    have confined := layers_confined document owner
    have room : (allOf (membersAt document q)).zipIdx ≠ [] →
        Walk.left (mergeRooms document owner) ⟨.fragment q :: w.seen, w.done⟩ < fuel ∧
        Walk.left (mergeRooms document owner) ⟨.fragment q :: w.seen, w.done⟩ < fuel' := by
      intro leads
      have listed := confined.listed here (by rw [parts]; simpa using leads)
      have fewer : Walk.left (mergeRooms document owner) ⟨.fragment q :: w.seen, w.done⟩ <
          Walk.left (mergeRooms document owner) w := Walk.left_lt listed fresh
      exact ⟨by omega, by omega⟩
    obtain ⟨below, walked⟩ := Walk.foldl_append (Walk.visit_append (Layer.parts document) fuel')
      (Layer.parts document (.fragment q)) ⟨.fragment q :: w.seen, w.done⟩
    have done : ((Layer.parts document (.fragment q)).foldl (Walk.visit (Layer.parts document) fuel')
      ⟨.fragment q :: w.seen, w.done⟩).done ++ [.fragment q] = w.done ++ new := done
    obtain rfl : below ++ [.fragment q] = new := by
      rw [walked, List.append_assoc] at done
      exact List.append_cancel_left done
    rw [List.flatMap_append, numberNeeds_append, List.flatMap_singleton, own_needs]
    refine Ends.bind (h.parts deep here (fun part member => List.mem_zipIdx_iff_getElem?.mp member) room
      (numbers.note _) (tracks.enter q) walked) fun acc a order numbers filled tracks => ?_
    have present : ∀ name ∈ propertyNames (membersAt document q),
        ∃ v, (ownPlace q name).find? document = some v := fun _ => own_present
    have own := own_ends (p := owner) asks numbers present tracks.numbered tracks.properties
    refine own.map _ fun order' v _ answer => ?_
    rw [answer.2]
    exact tracks.list q answer.1

theorem all_merges (asks : Answers document naming depth ask) (deep : placeLimit document ≤ limit) :
    Merges document naming limit depth owner ask fuel fuel' := by
  induction fuel generalizing fuel' with
  | zero => exact fun _ _ _ _ _ _ _ few => absurd few (Nat.not_lt_zero _)
  | succ fuel ih =>
    cases fuel' with
    | zero => exact fun _ _ _ _ _ _ _ _ few => absurd few (Nat.not_lt_zero _)
    | succ fuel' => exact ih.succ asks deep

end Merge

section Reading
variable {document raw : Json} {naming : Naming} {limit depth fuel : Nat} {p : Pointer}
  {ask : Pointer → Pointer → Builder Id} {order order' : List Pointer} {a : Arena} {ms : Members}

theorem nodeAt_eq (found : p.find? document = some raw) : nodeAt document naming order p =
    nodeOf p raw ((kind document naming p raw).map order.idxOf) := by
  simp only [nodeAt, found]
  rfl

theorem merged_ends (asks : Answers document naming depth ask) (deep : placeLimit document ≤ limit)
    (numbers : a.Numbers order) : Ends document naming order a
      (fun order' acc => acc.properties = Entries.mapValues order'.idxOf (shape document naming p ms).properties ∧
        acc.required = (shape document naming p ms).required)
      (merge document limit ask p limit (membersAt document p) p ⟨[], .empty, []⟩ a)
      (numberNeeds document depth p order ((layers document p).flatMap (Layer.needs document))) := by
  have inside : Layer.Inside document p (.fragment p) := fun _ found =>
    places_subset_rooms List.mem_cons_self found
  have few : Walk.left (mergeRooms document p) ⟨[], []⟩ < placeLimit document := by
    have all : Walk.left (mergeRooms document p) ⟨[], []⟩ ≤ (mergeRooms document p).length :=
      List.countP_le_length
    have room := length_rooms document p
    rw [List.length_map] at all
    omega
  have start : Tracks document ⟨[], []⟩ order ⟨[], .empty, []⟩ :=
    ⟨fun _ => ⟨nofun, nofun⟩, fun _ => nofun, fun _ => nofun, rfl, rfl⟩
  have merged := all_merges asks deep p ⟨[], []⟩ ⟨[], .empty, []⟩ a order (layers document p) inside
    (Nat.lt_of_lt_of_le few deep) few numbers start rfl
  exact merged.imp fun _ _ _ tracks => ⟨tracks.properties, tracks.required⟩

/-- A fragment reads as its node, and asks for what it needs. -/
theorem readNode_ends (asks : Answers document naming depth ask) (deep : placeLimit document ≤ limit)
    (found : p.find? document = some raw) (numbers : a.Numbers order) :
    Ends document naming order a (fun order' n => n = nodeAt document naming order' p)
      (readNode document naming limit ask p raw a)
      (numberNeeds document depth p order (needs document p raw)) := by
  simp only [nodeAt_eq found]
  have asked : ∀ (q : Pointer) (k : Id → Kind Id) (other : Kind Pointer),
      (∀ order' : List Pointer, k (order'.idxOf q) = other.map order'.idxOf) →
      Ends document naming order a (fun order' n => n = nodeOf p raw (other.map order'.idxOf))
        ((ask p q >>= fun id => pure (nodeOf p raw (k id))) a)
        (number document depth p order q >>= pure) := by
    intro q k other same
    rw [bind_pure]
    exact (asks p q order a numbers).map _ fun order' id _ answer => by rw [answer.2, same]
  cases raw with
  | object ms =>
    cases referring : Entries.get? "$ref" ms with
    | some reference =>
      simp only [readNode, needs, kind, referring]
      cases aimed : target p reference with
      | error e => exact .error
      | ok q => exact asked q .ref (.ref q) fun _ => rfl
    | none =>
      simp only [readNode, kind, referring]
      split
      · rename_i declared
        simp only [needs, referring, declared]
        exact .ok numbers (.same rfl) rfl
      · rename_i declared
        have own : membersAt document p = ms := by rw [membersAt, found]
        have merged := @merged_ends document naming limit depth p ask order a ms asks deep numbers
        rw [own] at merged
        simp only [declared, needs_layers ms referring declared]
        refine merged.map _ fun order' acc _ made => ?_
        rw [made.1, made.2]
        rfl
      · rename_i declared
        simp only [needs, referring, declared]
        cases placed : itemsPlace? p ms with
        | none => exact .ok numbers (.same rfl) rfl
        | some q => exact asked q (fun id => .array (some id)) (.array (some q)) fun _ => rfl
      · rename_i declared
        simp only [needs, referring, declared]
        exact .ok numbers (.same rfl) rfl
      · rename_i type plain list _ declared
        have nothing : needs document p (.object ms) = [] := by
          simp only [needs, referring, declared]
          split
          · rename_i same
            exact absurd (Option.some.inj same) plain
          · rename_i same
            exact absurd (Option.some.inj same) list
          · rfl
        rw [nothing]
        simp only [declared]
        cases Primitive.ofName? type with
        | none => exact .ok numbers (.same rfl) rfl
        | some t => exact .ok numbers (.same rfl) rfl
  | bool b => exact .ok numbers (.same rfl) rfl
  | _ => exact .error

theorem request_succ (source : Pointer) : request document naming limit (fuel + 1) source p a =
    (match Entries.get? p a.table with
    | some id => pure id
    | none =>
      match p.find? document with
      | none => throw (SpecError.unresolvable source p.label)
      | some raw =>
        modify (Arena.reserve p) >>= fun _ => modify (Arena.note (.read p)) >>= fun _ =>
          readNode document naming limit (request document naming limit fuel) p raw >>= fun n =>
            modify (Arena.fill a.slots.length n) >>= fun _ => pure a.slots.length : Builder Id)
      (a.note (.ask p)) :=
  rfl

theorem Filled.read {a' : Arena}
    (filled : Filled document naming (order ++ [p]) (a.reserve p) order' a')
    (provided : Provided document order' p) :
    Filled document naming order a order'
      (a'.fill a.slots.length (nodeAt document naming order' p)) := by
  obtain ⟨new, rfl, others, slots⟩ := filled
  refine ⟨p :: new, by rw [List.append_assoc]; rfl, fun q member => ?_, ?_⟩
  · rcases List.mem_cons.mp member with rfl | member
    · exact provided
    · exact others q member
  · rw [Arena.fill, slots, Arena.reserve, List.append_assoc, List.set_append_right _ _ (Nat.le_refl _),
      Nat.sub_self]
    rfl

theorem answers (deep : placeLimit document ≤ limit) (fuel : Nat) :
    Answers document naming fuel (request document naming limit fuel) := by
  induction fuel with
  | zero => exact fun _ _ _ _ _ => .error
  | succ fuel ih =>
    intro source p order a numbers
    rw [request_succ, numbers.table p, number]
    by_cases known : p ∈ order
    · rw [if_pos known, if_pos known]
      exact .ok (numbers.note _) (.same rfl) ⟨known, rfl⟩
    · rw [if_neg known, if_neg known]
      cases found : p.find? document with
      | none => exact .error
      | some raw =>
        have numbers' := ((numbers.note (.ask p)).reserve p).note (.read p)
        have read := readNode_ends ih deep found numbers'
        have numbered : ∀ order',
            numberNeeds document fuel p (order ++ [p]) (needs document p raw) = .ok order' →
              p ∈ order' ∧ Provided document order' p := by
          intro order' ended
          have all : number document (fuel + 1) source order p = .ok order' := by
            simp only [number, if_neg known, found]
            exact ended
          obtain ⟨extended, listed⟩ := number_extended all
          exact ⟨listed, (extended.provided p listed).resolve_left known⟩
        show Ends document naming order a _
          ((readNode document naming limit (request document naming limit fuel) p raw >>= fun n =>
            modify (Arena.fill a.slots.length n) >>= fun _ => pure a.slots.length : Builder Id)
              (((a.note (.ask p)).reserve p).note (.read p)))
          (numberNeeds document fuel p (order ++ [p]) (needs document p raw))
        generalize same : readNode _ _ _ _ _ _ _ = r at read
        generalize numberNeeds _ _ _ _ _ = n at read numbered
        cases read with
        | error =>
          rw [Builder.bind_error same]
          exact .error
        | @ok n a' order' numbers' filled here =>
          subst here
          rw [Builder.bind_ok same]
          obtain ⟨listed, provided⟩ := numbered order' rfl
          have start : Filled document naming (order ++ [p]) (a.reserve p) order' a' := filled
          refine .ok (numbers'.fill _ _) (start.read provided) ⟨listed, ?_⟩
          obtain ⟨new, rfl, _⟩ := filled
          rw [List.append_assoc, List.idxOf_append, if_neg known, numbers.length]
          simp

theorem assemble_ends (naming : Naming) (deep : placeLimit document ≤ limit) :
    Ends document naming [] .empty (fun _ _ => True) (assemble document naming limit .empty)
      ((roots document).foldlM (fun order p => number document limit p order p) []) := by
  have all : ∀ (ps order : List Pointer) (a : Arena), a.Numbers order →
      Ends document naming order a (fun _ _ => True)
        (ps.forM (fun p => discard (request document naming limit limit p p)) a)
        (ps.foldlM (fun order p => number document limit p order p) order) := by
    intro ps
    induction ps with
    | nil => exact fun order a numbers => .ok numbers (.same rfl) trivial
    | cons p rest ih =>
      intro order a numbers
      have first : Ends document naming order a (fun _ _ => True)
          ((discard (request document naming limit limit p p) : Builder Unit) a)
          (number document limit p order p) :=
        (answers deep limit p p order a numbers).map (fun _ => ()) fun _ _ _ _ => trivial
      exact first.bind fun _ a' order' numbers _ _ => ih order' a' numbers
  exact all (roots document) [] .empty empty_numbers

end Reading

end Schema
end ApiPayload
