import ApiPayload.Proofs.Layers

/-
References and roots. Whatever is read of a document stands at or below a root or a place that a
reference names, so there are finitely many places that reading can come to.
-/
namespace ApiPayload

namespace Json

mutual
/-- The values of all references in a value. -/
def references : Json → List Json
  | array xs => referencesItems xs
  | object ms => referencesMembers ms
  | _ => []

def referencesItems : List Json → List Json
  | [] => []
  | x :: xs => references x ++ referencesItems xs

def referencesMembers : List (String × Json) → List Json
  | [] => []
  | (key, x) :: ms => (if key = "$ref" then [x] else []) ++ references x ++ referencesMembers ms
end

mutual
theorem length_references : ∀ v : Json, (references v).length < size v
  | null | bool _ | number _ | string _ => Nat.one_pos
  | array xs => by
    have := length_referencesItems xs
    simp only [references, size]
    omega
  | object ms => by
    have := length_referencesMembers ms
    simp only [references, size]
    omega

theorem length_referencesItems : ∀ xs : List Json, (referencesItems xs).length ≤ sizeItems xs
  | [] => Nat.le_refl 0
  | x :: xs => by
    have := length_references x
    have := length_referencesItems xs
    simp only [referencesItems, sizeItems, List.length_append]
    omega

theorem length_referencesMembers :
    ∀ ms : List (String × Json), (referencesMembers ms).length ≤ sizeMembers ms
  | [] => Nat.le_refl 0
  | (key, x) :: ms => by
    have := length_references x
    have := length_referencesMembers ms
    simp only [referencesMembers, sizeMembers, List.length_append]
    split <;> simp only [List.length_cons, List.length_nil] <;> omega
end

theorem references_of_mem_items {x : Json} {xs : List Json} (member : x ∈ xs) :
    references x ⊆ referencesItems xs := by
  induction xs with
  | nil => cases member
  | cons y rest ih =>
    rw [referencesItems]
    rcases List.mem_cons.mp member with rfl | member
    · exact List.subset_append_left _ _
    · exact List.Subset.trans (ih member) (List.subset_append_right _ _)

theorem references_of_mem_members {key : String} {x : Json} {ms : List (String × Json)}
    (member : (key, x) ∈ ms) : references x ⊆ referencesMembers ms ∧
      (key = "$ref" → x ∈ referencesMembers ms) := by
  induction ms with
  | nil => cases member
  | cons m rest ih =>
    obtain ⟨other, y⟩ := m
    rw [referencesMembers, List.append_assoc]
    rcases List.mem_cons.mp member with same | member
    · cases same
      refine ⟨fun r inside => ?_, fun marked => ?_⟩
      · exact List.mem_append_right _ (List.mem_append_left _ inside)
      · rw [if_pos marked]
        exact List.mem_cons_self
    · obtain ⟨below, marked⟩ := ih member
      refine ⟨fun r inside => ?_, fun same => ?_⟩
      · exact List.mem_append_right _ (List.mem_append_right _ (below inside))
      · exact List.mem_append_right _ (List.mem_append_right _ (marked same))

theorem references_of_find? {p : Pointer} {document v : Json} (found : p.find? document = some v) :
    references v ⊆ references document :=
  Pointer.find?_induction (P := fun v => references v ⊆ references document)
    (fun _ _ here member => List.Subset.trans (references_of_mem_items member) here)
    (fun _ _ _ here member => List.Subset.trans (references_of_mem_members member).1 here)
    (List.Subset.refl _) found

theorem mem_references {v reference : Json} (found : v.member? "$ref" = some reference) :
    reference ∈ references v := by
  cases v with
  | object ms => exact (references_of_mem_members (Entries.mem_of_get? found)).2 rfl
  | _ => cases found

end Json

namespace Schema

variable {document v reference : Json} {source p q : Pointer} {key : String} {ms : Members}

/-- The places that the references of a document name. -/
def referenced (document : Json) : List Pointer :=
  document.references.filterMap fun reference => (target .root reference).toOption

theorem target_eq_ok : target source reference = .ok p ↔
    ∃ s rest, reference = .string s ∧ s.toList = '#' :: rest ∧ Pointer.ofChars? rest = some p := by
  constructor
  · intro found
    unfold target at found
    split at found
    · rename_i s
      split at found
      · rename_i rest written
        split at found
        · rename_i named
          cases found
          exact ⟨s, rest, rfl, written, named⟩
        · cases found
      · cases found
    · cases found
  · rintro ⟨s, rest, rfl, written, named⟩
    simp only [target, written, named]

/-- Whence a reference is followed matters to its faults only. -/
theorem target_source {other : Pointer} (found : target source reference = .ok p) :
    target other reference = .ok p :=
  target_eq_ok.mpr (target_eq_ok.mp found)

theorem target_referenced (found : target source reference = .ok p)
    (within : reference ∈ document.references) : p ∈ referenced document :=
  List.mem_filterMap.mpr ⟨reference, within, by rw [target_source found]; rfl⟩

theorem reference_within (found : p.find? document = some v)
    (referring : v.member? "$ref" = some reference) : reference ∈ document.references :=
  Json.references_of_find? found (Json.mem_references referring)

theorem unalias_referenced {fuel : Nat} (found : unalias document source fuel p = .ok q)
    (named : p ∈ referenced document) : q ∈ referenced document := by
  induction fuel generalizing p with
  | zero => cases found
  | succ fuel ih =>
    rw [unalias] at found
    split at found
    · cases found
      exact named
    · rename_i reference referring
      obtain ⟨v, present, referring⟩ := Option.bind_eq_some_iff.mp referring
      obtain ⟨next, aimed, later⟩ := Except.bind_eq_ok.mp found
      exact ih later (target_referenced aimed (reference_within present referring))

theorem length_referenced (document : Json) : (referenced document).length ≤ document.size := by
  have few := List.length_filterMap_le (fun reference => (target .root reference).toOption)
    document.references
  have fewer := Json.length_references document
  rw [referenced]
  omega

section Roots
open Spec

mutual
theorem length_schemaPlaces (p : Pointer) :
    ∀ v : Json, (schemaPlaces p v).length ≤ v.size
  | .null | .bool _ | .number _ | .string _ => Nat.zero_le _
  | .array xs => by
    have := length_schemaPlacesItems p 0 xs
    simp only [schemaPlaces, Json.size]
    omega
  | .object ms => by
    have := length_schemaPlacesMembers p ms
    simp only [schemaPlaces, Json.size]
    omega

theorem length_schemaPlacesItems (p : Pointer) (i : Nat) :
    ∀ xs : List Json, (schemaPlacesItems p i xs).length ≤ Json.sizeItems xs
  | [] => Nat.le_refl 0
  | x :: xs => by
    have := length_schemaPlaces (p.item i) x
    have := length_schemaPlacesItems p (i + 1) xs
    simp only [schemaPlacesItems, Json.sizeItems, List.length_append]
    omega

theorem length_schemaPlacesMembers (p : Pointer) :
    ∀ ms : List (String × Json), (schemaPlacesMembers p ms).length ≤ Json.sizeMembers ms
  | [] => Nat.le_refl 0
  | (key, x) :: ms => by
    have := length_schemaPlaces (p.child key) x
    have := length_schemaPlacesMembers p ms
    have := x.size_pos
    simp only [schemaPlacesMembers, Json.sizeMembers, List.length_append]
    split
    · simp only [List.length_cons, List.length_nil]
      omega
    · omega
end

/-- Members under different keys stand side by side. -/
theorem sum_size_members {keys : List String} (distinct : keys.Nodup) (ms : Members) :
    (keys.map fun key => ((Entries.get? key ms).map Json.size).getD 0).sum ≤ Json.sizeMembers ms := by
  induction ms with
  | nil => simp [Entries.get?]
  | cons m rest ih =>
    obtain ⟨own, x⟩ := m
    have split : ∀ keys : List String, keys.Nodup →
        (keys.map fun key => ((Entries.get? key ((own, x) :: rest)).map Json.size).getD 0).sum ≤
          x.size + (keys.map fun key => ((Entries.get? key rest).map Json.size).getD 0).sum ∧
        (own ∉ keys →
          (keys.map fun key => ((Entries.get? key ((own, x) :: rest)).map Json.size).getD 0).sum =
            (keys.map fun key => ((Entries.get? key rest).map Json.size).getD 0).sum) := by
      intro keys distinct
      induction keys with
      | nil => simp
      | cons key keys ih =>
        obtain ⟨fresh, later⟩ := List.nodup_cons.mp distinct
        obtain ⟨bound, same⟩ := ih later
        by_cases here : own = key
        · subst here
          have others := same fresh
          simp only [List.map_cons, List.sum_cons, Entries.get?, if_true, Option.map_some,
            Option.getD_some] at others ⊢
          exact ⟨by omega, fun absent => absurd List.mem_cons_self absent⟩
        · simp only [List.map_cons, List.sum_cons, Entries.get?, here, if_false] at bound same ⊢
          refine ⟨by omega, fun absent => ?_⟩
          rw [same fun member => absent (List.mem_cons_of_mem _ member)]
    have here := (split keys distinct).1
    rw [Json.sizeMembers]
    omega

theorem length_le_size (ms : Members) : ms.length ≤ (Json.object ms).size := by
  have each : ms.length ≤ Json.sizeMembers ms := by
    induction ms with
    | nil => exact Nat.le_refl 0
    | cons m rest ih =>
      have := m.2.size_pos
      simp only [Json.sizeMembers, List.length_cons]
      omega
  rw [Json.size]
  omega

theorem find?_key {key : String} (plain : Pointer.unescape key = key) (named : key ≠ "")
    (word : Pointer.indexOf? key = none) (document : Json) :
    (⟨[key]⟩ : Pointer).find? document = document.member? key := by
  have led : ([key].dropWhile fun token => token = "") = [key] := by simp [named]
  rw [Pointer.find?, led, Pointer.walk]
  cases document with
  | array xs => rw [Pointer.step, plain, word]; rfl
  | object ms =>
    rw [Pointer.step, plain, Json.member?]
    cases Entries.get? key ms <;> rfl
  | _ => rfl

theorem find?_schemas (document : Json) : (⟨["components", "schemas"]⟩ : Pointer).find? document =
    (document.member? "components").bind (Json.member? "schemas") := by
  have path := Pointer.find?_append (p := ⟨["components"]⟩) (t := "schemas") (.inl (by decide)) document
  rw [find?_key (by decide) (by decide) (by decide)] at path
  refine path.trans (congrArg _ (funext fun v => ?_))
  have one : (⟨["schemas"]⟩ : Pointer).find? v = v.member? "schemas" :=
    find?_key (by decide) (by decide) (by decide) v
  rw [← one]
  show Pointer.step "schemas" v = (Pointer.step "schemas" v).bind (Pointer.walk [])
  cases Pointer.step "schemas" v <;> rfl

theorem size_member {v x : Json} {key : String} (found : v.member? key = some x) :
    x.size ≤ v.size := by
  cases v with
  | object ms =>
    have := Json.size_le_of_mem_members (Entries.mem_of_get? found)
    rw [Json.size]
    omega
  | _ => cases found

theorem length_definitions (document : Json) : (definitions document).length ≤
    ((document.member? "definitions").map Json.size).getD 0 +
      ((document.member? "components").map Json.size).getD 0 := by
  simp only [definitions, containers, List.flatMap_cons, List.flatMap_nil, List.append_nil,
    List.length_append]
  refine Nat.add_le_add ?_ ?_
  · rw [find?_key (by decide) (by decide) (by decide)]
    split
    · rename_i ms found
      rw [found, List.length_map]
      exact length_le_size ms
    · exact Nat.zero_le _
  · rw [find?_schemas]
    split
    · rename_i ms found
      obtain ⟨v, above, found⟩ := Option.bind_eq_some_iff.mp found
      have few := length_le_size ms
      have within := size_member found
      rw [above, List.length_map]
      exact Nat.le_trans few within
    · exact Nat.zero_le _

theorem length_roots (document : Json) : (roots document).length ≤ document.size := by
  have defined := length_definitions document
  have apart : ((document.member? "definitions").map Json.size).getD 0 +
      ((document.member? "components").map Json.size).getD 0 +
      ((document.member? "paths").map Json.size).getD 0 ≤ document.size := by
    cases document with
    | object ms =>
      have distinct : ["definitions", "components", "paths"].Nodup := by decide
      have sum := sum_size_members distinct ms
      simp only [List.map_cons, List.map_nil, List.sum_cons, List.sum_nil] at sum
      simp only [Json.member?, Json.size]
      omega
    | _ => exact Nat.zero_le _
  rw [roots, List.length_append, List.length_map]
  cases found : document.member? "paths" with
  | none =>
    simp only [List.length_nil]
    omega
  | some paths =>
    have places := length_schemaPlaces (Pointer.root.child "paths") paths
    simp only [found, Option.map_some, Option.getD_some] at apart
    show (definitions document).length + (schemaPlaces _ paths).length ≤ _
    omega

end Roots

section Spots

/-- Where reading starts anew: at a root or where a reference leads. -/
def starts (document : Json) : List Pointer := Spec.roots document ++ referenced document

/-- The starts and all that stands below them. -/
def spots (document : Json) : List Pointer :=
  (starts document).flatMap fun start =>
    start :: ((start.find? document).map (Json.places start)).getD []

theorem mem_spots : p ∈ spots document ↔ ∃ start ∈ starts document,
    p = start ∨ ∃ v, start.find? document = some v ∧ p ∈ v.places start := by
  simp only [spots, List.mem_flatMap, List.mem_cons]
  refine exists_congr fun start => and_congr_right fun _ => or_congr_right ?_
  cases start.find? document with
  | none => simp
  | some v => simp

theorem length_spots (document : Json) : (spots document).length < placeLimit document := by
  have each : ∀ starts : List Pointer, (starts.flatMap fun start =>
      start :: ((start.find? document).map (Json.places start)).getD []).length ≤
        starts.length * (document.size + 1) := by
    intro starts
    induction starts with
    | nil => simp
    | cons start rest ih =>
      have first : (((start.find? document).map (Json.places start)).getD []).length ≤
          document.size := by
        cases found : start.find? document with
        | none => exact Nat.zero_le _
        | some v =>
          rw [Option.map_some, Option.getD_some, Json.length_places]
          exact Json.size_of_find? found
      rw [List.flatMap_cons, List.length_append, List.length_cons, List.length_cons, Nat.succ_mul]
      omega
  have few : (starts document).length ≤ 2 * document.size := by
    have := length_roots document
    have := length_referenced document
    rw [starts, List.length_append]
    omega
  have all := each (starts document)
  have product : (starts document).length * (document.size + 1) ≤
      2 * document.size * (document.size + 1) := Nat.mul_le_mul_right _ few
  have room : 2 * document.size * (document.size + 1) <
      2 * (document.size + 1) * (document.size + 1) :=
    (Nat.mul_lt_mul_right (Nat.succ_pos _)).mpr (by omega)
  rw [spots, placeLimit]
  omega

/-- A place that reading can come to, with all that stands there. -/
structure Standing (document : Json) (p : Pointer) : Prop where
  spot : p ∈ spots document
  below : ∀ v, p.find? document = some v → v.places p ⊆ spots document

theorem standing_start (start : p ∈ starts document) : Standing document p := by
  refine ⟨mem_spots.mpr ⟨p, start, .inl rfl⟩, fun v found q member => ?_⟩
  exact mem_spots.mpr ⟨p, start, .inr ⟨v, found, member⟩⟩

theorem Standing.child (h : Standing document p) (found : p.find? document = some (.object ms))
    (listed : Entries.get? key ms = some v) (leads : key ≠ "" ∨ ∃ token ∈ p.tokens, token ≠ "") :
    Standing document (p.child key) := by
  have below := List.Subset.trans (Json.places_member listed) (h.below _ found)
  refine ⟨below (Json.places_self _ v), fun w stands => ?_⟩
  rw [Pointer.find?_child found leads, listed] at stands
  cases stands
  exact below

theorem Standing.item {xs : List Json} {i : Nat} (h : Standing document p)
    (found : p.find? document = some (.array xs)) (listed : xs[i]? = some v) :
    Standing document (p.item i) := by
  have below := List.Subset.trans (Json.places_item listed) (h.below _ found)
  refine ⟨below (Json.places_self _ v), fun w stands => ?_⟩
  rw [Pointer.find?_item found, listed] at stands
  cases stands
  exact below

/-- What stands in the list of parts of a fragment. -/
theorem find?_part {i : Nat} {part : Json}
    (present : (allOf (membersAt document p))[i]? = some part) :
    ((p.child "allOf").item i).find? document = some part := by
  obtain ⟨ms, parts, found, listed, present⟩ := allOf_membersAt present
  have array : (p.child "allOf").find? document = some (.array parts) :=
    (Pointer.find?_child found (.inl (by decide))).trans listed
  exact (Pointer.find?_item array i).trans present

/-- What has a property hands it on to what stands in it. -/
structure Descends (document : Json) (P : Pointer → Prop) : Prop where
  child : ∀ {p key ms v}, P p → p.find? document = some (.object ms) → Entries.get? key ms = some v →
    (key ≠ "" ∨ ∃ token ∈ p.tokens, token ≠ "") → P (p.child key)
  item : ∀ {p xs i v}, P p → p.find? document = some (.array xs) → xs[i]? = some v → P (p.item i)

/-- All that references name has the property, too. -/
structure Passed (document : Json) (P : Pointer → Prop) : Prop extends Descends document P where
  named : ∀ q ∈ referenced document, P q

theorem standing_passed (document : Json) : Passed document (Standing document) where
  named _ named := standing_start (List.mem_append_right _ named)
  child here found listed leads := here.child found listed leads
  item here found listed := here.item found listed

variable {P : Pointer → Prop}

theorem Passed.part {i : Nat} {part : Json} (h : Passed document P) (here : P p)
    (present : (allOf (membersAt document p))[i]? = some part)
    (placed : partPlace document p i part = .ok q) : P q := by
  have stands := find?_part present
  obtain ⟨ms, parts, found, listed, present⟩ := allOf_membersAt present
  have array : (p.child "allOf").find? document = some (.array parts) :=
    (Pointer.find?_child found (.inl (by decide))).trans listed
  rcases (partPlace_eq_ok.mp placed).1 with ⟨_, rfl⟩ | ⟨reference, aim, referring, aimed, ended⟩
  · exact h.item (h.child here found listed (.inl (by decide))) array present
  · have aim_named := target_referenced aimed (reference_within stands referring)
    exact h.named q (unalias_referenced ended aim_named)

theorem Passed.layer (h : Passed document P) (here : P p)
    (merged : .fragment q ∈ layers document p) : P q := by
  have all : ∀ l, Walk.Reaches (Layer.parts document) (.fragment p) l →
      ∀ q, l = .fragment q → P q := by
    intro l reached
    induction reached with
    | refl =>
      rintro _ ⟨rfl⟩
      exact here
    | @tail between last _ part ih =>
      rintro q rfl
      cases between with
      | fault e => cases part
      | fragment r =>
        obtain ⟨i, part, present, placed⟩ := fragment_mem_parts.mp part
        exact h.part (ih r rfl) present placed
  exact all _ (mem_layers.mp merged) q rfl

/-- A property that a fragment has itself stands below the fragment. -/
theorem own_property {name : String} (own : (name, q) ∈ ownProperties document p) :
    ∃ ms ps v, p.find? document = some (.object ms) ∧ Entries.get? "properties" ms = some (.object ps) ∧
      q = (p.child "properties").child name ∧ Entries.get? name ps = some v ∧
        q.find? document = some v := by
  unfold ownProperties at own
  split at own
  · rename_i ps listed
    obtain ⟨⟨key, x⟩, member, same⟩ := List.mem_map.mp own
    cases same
    have present : ∃ ms, p.find? document = some (.object ms) ∧ membersAt document p = ms := by
      unfold membersAt at listed ⊢
      split at listed
      · rename_i ms found
        exact ⟨ms, found, rfl⟩
      · cases listed
    obtain ⟨ms, found, same⟩ := present
    rw [same] at listed
    have object : (p.child "properties").find? document = some (.object ps) :=
      (Pointer.find?_child found (.inl (by decide))).trans listed
    have known : Entries.contains key ps = true :=
      Entries.contains_iff.mpr (List.mem_map_of_mem member)
    obtain ⟨v, listed'⟩ := Option.isSome_iff_exists.mp known
    have leads : ∃ token ∈ (p.child "properties").tokens, token ≠ "" :=
      ⟨_, List.mem_append_right _ (List.mem_singleton_self _), by decide⟩
    exact ⟨ms, ps, v, found, listed, rfl, listed', (Pointer.find?_child object (.inr leads)).trans listed'⟩
  · cases own

theorem Passed.property {name : String} (h : Passed document P) (here : P p)
    (own : (name, q) ∈ ownProperties document p) : P q := by
  obtain ⟨ms, ps, v, found, listed, rfl, listed', _⟩ := own_property own
  have object : (p.child "properties").find? document = some (.object ps) :=
    (Pointer.find?_child found (.inl (by decide))).trans listed
  have leads : ∃ token ∈ (p.child "properties").tokens, token ≠ "" :=
    ⟨_, List.mem_append_right _ (List.mem_singleton_self _), by decide⟩
  exact h.child (h.child here found listed (.inl (by decide))) object listed' (.inr leads)

theorem items_place {ms : Members} (placed : itemsPlace? p ms = some q) :
    q = p.child "items" ∧ ∃ v, Entries.get? "items" ms = some v := by
  unfold itemsPlace? at placed
  split at placed
  · rename_i listed
    cases placed
    exact ⟨rfl, _, listed⟩
  · rename_i listed
    cases placed
    exact ⟨rfl, _, listed⟩
  · cases placed

end Spots
end Schema
end ApiPayload
