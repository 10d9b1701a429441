import ApiPayload.Proofs.Places
import ApiPayload.Proofs.Results

/-
Merging of fragments. All fragments that are led to by parts of parts are merged, each reference
followed to the end of its aliases, whether or not parts lead back to one another.
-/
namespace ApiPayload.Schema

open Walk

variable {document : Json} {source p q : Pointer}

/-- The places that texts of a document name. -/
def namedPlaces (document : Json) : List Pointer :=
  document.texts.filterMap fun s =>
    match s.toList with
    | '#' :: rest => Pointer.ofChars? rest
    | _ => none

theorem target_named {reference : Json} (found : target source reference = .ok p)
    (within : reference.texts ⊆ document.texts) : p ∈ namedPlaces document := by
  unfold target at found
  split at found
  · rename_i s
    have member : s ∈ document.texts := within (by simp [Json.texts])
    split at found
    · rename_i rest written
      split at found
      · rename_i named
        cases found
        exact List.mem_filterMap.mpr ⟨s, member, by rw [written]; exact named⟩
      · cases found
    · cases found
  · cases found

theorem texts_of_member {v reference : Json} {key : String} (found : v.member? key = some reference) :
    reference.texts ⊆ v.texts := by
  cases v with
  | object ms => exact Json.texts_of_mem_members (Entries.mem_of_get? found)
  | _ => cases found

theorem unalias_named {fuel : Nat} (found : unalias document source fuel p = .ok q)
    (named : p ∈ namedPlaces document) : q ∈ namedPlaces document := by
  induction fuel generalizing p with
  | zero => cases found
  | succ fuel ih =>
    rw [unalias] at found
    split at found
    · cases found
      exact named
    · rename_i reference referring
      obtain ⟨v, present, referring⟩ := Option.bind_eq_some_iff.mp referring
      cases first : target p reference with
      | error e =>
        rw [first] at found
        cases found
      | ok next =>
        rw [first] at found
        have within := List.Subset.trans (texts_of_member referring) (Json.texts_of_find? present)
        exact ih found (target_named first within)

theorem checked_eq_ok {place : Pointer} : (match place.find? document with
      | some (.object _) => (.ok place : Except SpecError Pointer)
      | _ => .error (.unresolvable source place.label)) = .ok q ↔
    place = q ∧ ∃ ms, q.find? document = some (.object ms) := by
  constructor
  · intro found
    split at found
    · rename_i ms present
      cases found
      exact ⟨rfl, ms, present⟩
    · cases found
  · rintro ⟨rfl, ms, present⟩
    rw [present]

/-- Where a part is: at its own place, or where its reference ends. -/
theorem partPlace_eq_ok {i : Nat} {part : Json} : partPlace document source i part = .ok q ↔
    (part.member? "$ref" = none ∧ q = (source.child "allOf").item i ∨
      ∃ reference aim, part.member? "$ref" = some reference ∧ target source reference = .ok aim ∧
        unalias document source (aliasLimit document) aim = .ok q) ∧
    ∃ ms, q.find? document = some (.object ms) := by
  unfold partPlace
  constructor
  · intro found
    cases referring : part.member? "$ref" with
    | none =>
      rw [referring] at found
      obtain ⟨place, placed, found⟩ := Except.bind_eq_ok.mp found
      cases placed
      obtain ⟨rfl, here⟩ := checked_eq_ok.mp found
      exact ⟨.inl ⟨rfl, rfl⟩, here⟩
    | some reference =>
      rw [referring] at found
      obtain ⟨aim, aimed, found⟩ := Except.bind_eq_ok.mp found
      obtain ⟨place, ended, found⟩ := Except.bind_eq_ok.mp found
      obtain ⟨rfl, here⟩ := checked_eq_ok.mp found
      exact ⟨.inr ⟨reference, aim, rfl, aimed, ended⟩, here⟩
  · rintro ⟨placed, here⟩
    rcases placed with ⟨inline, rfl⟩ | ⟨reference, aim, referring, aimed, ended⟩
    · rw [inline]
      exact checked_eq_ok.mpr ⟨rfl, here⟩
    · rw [referring]
      refine Except.bind_eq_ok.mpr ⟨aim, aimed, Except.bind_eq_ok.mpr ⟨q, ended, ?_⟩⟩
      exact checked_eq_ok.mpr ⟨rfl, here⟩

theorem fragment_mem_parts : .fragment q ∈ Layer.parts document (.fragment p) ↔
    ∃ i part, (allOf (membersAt document p))[i]? = some part ∧
      partPlace document p i part = .ok q := by
  simp only [Layer.parts, List.mem_map, Prod.exists, List.mem_zipIdx_iff_getElem?]
  constructor
  · rintro ⟨part, i, present, made⟩
    split at made
    · rename_i placed
      cases made
      exact ⟨i, part, present, placed⟩
    · cases made
  · rintro ⟨i, part, present, placed⟩
    exact ⟨part, i, present, by rw [placed]⟩

theorem fault_mem_parts {i : Nat} {part : Json} {e : SpecError}
    (present : (allOf (membersAt document p))[i]? = some part)
    (failed : partPlace document p i part = .error e) :
    .fault e ∈ Layer.parts document (.fragment p) := by
  simp only [Layer.parts, List.mem_map, Prod.exists, List.mem_zipIdx_iff_getElem?]
  exact ⟨part, i, present, by rw [failed]⟩

theorem allOf_membersAt {i : Nat} {part : Json}
    (present : (allOf (membersAt document p))[i]? = some part) : ∃ ms parts,
      p.find? document = some (.object ms) ∧ Entries.get? "allOf" ms = some (.array parts) ∧
        parts[i]? = some part := by
  have none_of_nil : ∀ ms : Members, ms = [] → (allOf ms)[i]? ≠ some part := by
    rintro ms rfl other
    cases other
  unfold membersAt at present
  split at present
  · rename_i ms found
    unfold allOf at present
    split at present
    · rename_i parts listed
      exact ⟨ms, parts, found, listed, present⟩
    · cases present
  · exact absurd present (none_of_nil _ rfl)

section Depth

/-- All places at or below a start and the places that texts name. -/
def rooms (document : Json) (p : Pointer) : List Pointer :=
  (p :: namedPlaces document).flatMap fun r => ((r.find? document).map (Json.places r)).getD []

theorem places_subset_rooms {r : Pointer} {v : Json} (start : r ∈ p :: namedPlaces document)
    (found : r.find? document = some v) : v.places r ⊆ rooms document p := by
  intro q member
  exact List.mem_flatMap.mpr ⟨r, start, by rw [found]; exact member⟩

theorem length_rooms (document : Json) (p : Pointer) :
    (rooms document p).length < placeLimit document := by
  have each : ∀ rs : List Pointer, (rs.flatMap fun r =>
      ((r.find? document).map (Json.places r)).getD []).length ≤ rs.length * document.size := by
    intro rs
    induction rs with
    | nil => simp
    | cons r rest ih =>
      have first : (((r.find? document).map (Json.places r)).getD []).length ≤ document.size := by
        cases found : r.find? document with
        | none => exact Nat.zero_le _
        | some v =>
          rw [Option.map_some, Option.getD_some, Json.length_places]
          exact Json.size_of_find? found
      rw [List.flatMap_cons, List.length_append, List.length_cons, Nat.succ_mul]
      omega
  have few : (namedPlaces document).length ≤ document.size :=
    Nat.le_trans (List.length_filterMap_le _ _) (Json.length_texts document)
  have all := each (p :: namedPlaces document)
  rw [List.length_cons] at all
  have product : ((namedPlaces document).length + 1) * document.size ≤
      (document.size + 1) * (document.size + 1) :=
    Nat.mul_le_mul (Nat.succ_le_succ few) (Nat.le_succ _)
  have positive : 0 < (document.size + 1) * (document.size + 1) :=
    Nat.mul_pos (Nat.succ_pos _) (Nat.succ_pos _)
  rw [rooms, placeLimit, Nat.mul_assoc]
  omega

/-- All that stands at a layer is among the rooms of the walk. -/
def Layer.Inside (document : Json) (p : Pointer) : Layer → Prop
  | .fragment q => ∀ v, q.find? document = some v → v.places q ⊆ rooms document p
  | .fault _ => True

theorem inside_part {i : Nat} {part : Json} (here : Layer.Inside document p (.fragment source))
    (present : (allOf (membersAt document source))[i]? = some part)
    (placed : partPlace document source i part = .ok q) :
    Layer.Inside document p (.fragment q) := by
  obtain ⟨ms, parts, found, listed, present⟩ := allOf_membersAt present
  have array : (source.child "allOf").find? document = some (.array parts) :=
    (Pointer.find?_child found (.inl (by decide))).trans listed
  have standing : ((source.child "allOf").item i).find? document = some part :=
    (Pointer.find?_item array i).trans present
  intro v stands
  rcases (partPlace_eq_ok.mp placed).1 with ⟨_, rfl⟩ | ⟨reference, aim, referring, aimed, ended⟩
  · rw [standing] at stands
    cases stands
    have below : part.places ((source.child "allOf").item i) ⊆ (Json.object ms).places source :=
      List.Subset.trans (Json.places_item present) (Json.places_member listed)
    exact List.Subset.trans below (here _ found)
  · have within := List.Subset.trans (texts_of_member referring) (Json.texts_of_find? standing)
    have named := unalias_named ended (target_named aimed within)
    exact places_subset_rooms (List.mem_cons_of_mem p named) stands

theorem layers_confined (document : Json) (p : Pointer) : Confined (Layer.parts document)
    (Layer.Inside document p) ((rooms document p).map .fragment) := by
  constructor
  · intro l next here near
    cases l with
    | fault e => cases near
    | fragment source =>
      cases next with
      | fault e => trivial
      | fragment q =>
        obtain ⟨i, part, present, placed⟩ := fragment_mem_parts.mp near
        exact inside_part here present placed
  · intro l here leads
    cases l with
    | fault e => exact absurd rfl leads
    | fragment source =>
      refine List.mem_map_of_mem ?_
      cases all : allOf (membersAt document source) with
      | nil => simp [Layer.parts, all] at leads
      | cons part rest =>
        have present : (allOf (membersAt document source))[0]? = some part := by rw [all]; rfl
        obtain ⟨ms, parts, found, _, _⟩ := allOf_membersAt present
        exact here _ found (Json.places_self source _)

theorem mem_layers {l : Layer} :
    l ∈ layers document p ↔ Reaches (Layer.parts document) (.fragment p) l := by
  refine mem_postorder (layers_confined document p) ?_ ?_
  · intro v found
    exact places_subset_rooms List.mem_cons_self found
  · rw [List.length_map]
    exact length_rooms document p

/-- What a merged fragment merges is merged. -/
theorem layers_subset {l : Layer} (merged : .fragment q ∈ layers document p)
    (member : l ∈ layers document q) : l ∈ layers document p :=
  mem_layers.mpr ((mem_layers.mp merged).trans (mem_layers.mp member))

end Depth

section Merged

variable {naming : Naming} {ms : Members} {name : String}

theorem keys_foldl_insert {κ α : Type} [DecidableEq κ] {key : κ} (es acc : List (κ × α)) :
    key ∈ Entries.keys (es.foldl (fun acc e => Entries.insert e.1 e.2 acc) acc) ↔
      key ∈ Entries.keys acc ∨ key ∈ Entries.keys es := by
  induction es generalizing acc with
  | nil => simp [Entries.keys]
  | cons e rest ih =>
    have inserted : key ∈ Entries.keys (Entries.insert e.1 e.2 acc) ↔
        key ∈ Entries.keys acc ∨ key = e.1 := by
      rw [Entries.keys_insert]
      split <;> grind
    have listed : key ∈ Entries.keys (e :: rest) ↔ key = e.1 ∨ key ∈ Entries.keys rest :=
      List.mem_cons
    rw [List.foldl_cons, ih, inserted, listed, or_assoc]

theorem mem_places {ls : List Layer} : q ∈ ls.filterMap Layer.place? ↔ .fragment q ∈ ls := by
  rw [List.mem_filterMap]
  constructor
  · rintro ⟨l, member, found⟩
    cases l with
    | fragment p =>
      cases found
      exact member
    | fault e => cases found
  · intro member
    exact ⟨_, member, rfl⟩

/-- An object schema has the properties that the fragments merged into it have. -/
theorem mem_properties_shape : name ∈ Entries.keys (shape document naming p ms).properties ↔
    ∃ q, .fragment q ∈ layers document p ∧ name ∈ Entries.keys (ownProperties document q) := by
  have merged : ∀ (qs : List Pointer) (acc : List (String × Pointer)),
      name ∈ Entries.keys (qs.foldl (fun acc q =>
        (ownProperties document q).foldl (fun acc e => Entries.insert e.1 e.2 acc) acc) acc) ↔
      name ∈ Entries.keys acc ∨ ∃ q ∈ qs, name ∈ Entries.keys (ownProperties document q) := by
    intro qs
    induction qs with
    | nil => simp
    | cons q rest ih =>
      intro acc
      simp only [List.foldl_cons, ih, keys_foldl_insert, or_assoc, List.mem_cons, exists_eq_or_imp]
  rw [shape, merged]
  simp only [Entries.keys, List.map_nil, List.not_mem_nil, false_or, mem_places]

theorem mem_required_shape : name ∈ (shape document naming p ms).required ↔
    ∃ q, .fragment q ∈ layers document p ∧ name ∈ ownRequired document q := by
  rw [shape, NameSet.mem_ofList, List.mem_flatMap]
  simp only [mem_places]

end Merged
end ApiPayload.Schema
