import Mathlib.Data.List.DropRight
import ApiPayload.Proofs.References

/-
Texts of pointers. Written out and read back, a pointer is the same, as long as no token of it holds a
slash; and no pointer that reading comes to has such a token.
-/
namespace ApiPayload

namespace Pointer

variable {p : Pointer} {cs part : List Char} {key : String}

/-- No token holds a slash. -/
def Plain (p : Pointer) : Prop := ∀ t ∈ p.tokens, '/' ∉ t.toList

theorem splitSlashes_ne_nil (cs : List Char) : splitSlashes cs ≠ [] := by
  cases cs with
  | nil => exact List.cons_ne_nil _ _
  | cons c rest =>
    rw [splitSlashes]
    split
    · exact List.cons_ne_nil _ _
    · split
      · exact List.cons_ne_nil _ _
      · exact List.cons_ne_nil _ _

theorem splitSlashes_cons {c : Char} (other : c ≠ '/') (rest : List Char) :
    ∃ part parts, splitSlashes rest = part :: parts ∧
      splitSlashes (c :: rest) = (c :: part) :: parts := by
  cases split : splitSlashes rest with
  | nil => exact absurd split (splitSlashes_ne_nil rest)
  | cons part parts => exact ⟨part, parts, rfl, by simp only [splitSlashes, if_neg other, split]⟩

theorem not_mem_splitSlashes (member : part ∈ splitSlashes cs) : '/' ∉ part := by
  induction cs generalizing part with
  | nil =>
    rw [List.mem_singleton.mp member]
    exact List.not_mem_nil
  | cons c rest ih =>
    by_cases slash : c = '/'
    · rw [splitSlashes, if_pos slash] at member
      rcases List.mem_cons.mp member with rfl | member
      · exact List.not_mem_nil
      · exact ih member
    · obtain ⟨first, parts, split, more⟩ := splitSlashes_cons slash rest
      rw [more] at member
      rcases List.mem_cons.mp member with rfl | member
      · intro inside
        rcases List.mem_cons.mp inside with same | inside
        · exact slash same.symm
        · exact ih (split ▸ List.mem_cons_self) inside
      · exact ih (split ▸ List.mem_cons_of_mem first member)

/-- A part without a slash is split off whole. -/
theorem splitSlashes_append (plain : '/' ∉ part) (rest : List Char) :
    splitSlashes (part ++ '/' :: rest) = part :: splitSlashes rest := by
  induction part with
  | nil => rw [List.nil_append, splitSlashes, if_pos rfl]
  | cons c part ih =>
    have other : c ≠ '/' := fun same => plain (same ▸ List.mem_cons_self)
    obtain ⟨first, parts, split, more⟩ := splitSlashes_cons other (part ++ '/' :: rest)
    rw [ih fun member => plain (List.mem_cons_of_mem c member)] at split
    cases split
    exact more

theorem splitSlashes_plain (plain : '/' ∉ part) : splitSlashes part = [part] := by
  induction part with
  | nil => rfl
  | cons c part ih =>
    have other : c ≠ '/' := fun same => plain (same ▸ List.mem_cons_self)
    obtain ⟨first, parts, split, more⟩ := splitSlashes_cons other part
    rw [ih fun member => plain (List.mem_cons_of_mem c member)] at split
    cases split
    exact more

theorem ofParts_plain (cs : List Char) : (ofParts cs).Plain := by
  intro t member
  obtain ⟨part, split, rfl⟩ := List.mem_map.mp member
  rw [String.toList_ofList]
  exact not_mem_splitSlashes split

theorem ofChars?_plain (read : ofChars? cs = some p) : p.Plain := by
  unfold ofChars? at read
  split at read
  · cases read
    exact fun _ => nofun
  · cases read
    exact ofParts_plain _
  · cases read

theorem Plain.append {t : String} (h : p.Plain) (plain : '/' ∉ t.toList) :
    (⟨p.tokens ++ [t]⟩ : Pointer).Plain := by
  intro u member
  rcases List.mem_append.mp member with member | last
  · exact h u member
  · rw [List.mem_singleton.mp last]
    exact plain

theorem Plain.child (h : p.Plain) (key : String) : (p.child key).Plain := by
  refine h.append fun inside => ?_
  rw [escape, String.toList_ofList, List.mem_flatMap] at inside
  obtain ⟨c, _, inside⟩ := inside
  unfold escapeChar at inside
  split at inside
  · exact absurd inside (by decide)
  · split at inside
    · exact absurd inside (by decide)
    · rename_i other
      exact other (List.mem_singleton.mp inside).symm

theorem Plain.item (h : p.Plain) (i : Nat) : (p.item i).Plain := by
  refine h.append fun inside => ?_
  rw [show toString i = i.repr from rfl, Nat.repr_eq_ofList_toDigits, String.toList_ofList] at inside
  exact absurd (Nat.isDigit_of_mem_toDigits (by decide) (by decide) inside) (by decide)

/-- The characters between the leading slash and the end. -/
def spelling (ts : List String) : List Char := ts.flatMap fun t => '/' :: t.toList

theorem ofParts_spelling {t : String} {ts : List String} (plain : ∀ u ∈ t :: ts, '/' ∉ u.toList) :
    ofParts (t.toList ++ spelling ts) = ⟨t :: ts⟩ := by
  induction ts generalizing t with
  | nil =>
    rw [spelling, List.flatMap_nil, List.append_nil, ofParts,
      splitSlashes_plain (plain t List.mem_cons_self), List.map_singleton, String.ofList_toList]
  | cons u ts ih =>
    have later := ih fun v member => plain v (List.mem_cons_of_mem t member)
    rw [ofParts, Pointer.mk.injEq] at later ⊢
    rw [spelling, List.flatMap_cons, List.cons_append,
      splitSlashes_append (plain t List.mem_cons_self), List.map_cons, String.ofList_toList]
    exact congrArg _ later

theorem toList_text (p : Pointer) : p.text.toList = spelling p.tokens := String.toList_ofList ..

/-- Written out and read back, a pointer is the same. -/
theorem ofChars?_text (plain : p.Plain) : ofChars? p.text.toList = some p := by
  rw [toList_text]
  obtain ⟨ts⟩ := p
  cases ts with
  | nil => rfl
  | cons t ts => exact congrArg some (ofParts_spelling plain)

theorem hashless_text (p : Pointer) : hashless p.text = p.text.toList := by
  rw [hashless, toList_text]
  obtain ⟨ts⟩ := p
  cases ts with
  | nil => rfl
  | cons t ts => exact List.dropWhile_cons_of_neg (by decide)

/-- Its slashes in front left out, the text of a pointer leads where the pointer leads. -/
theorem ofFragment_text (plain : p.Plain) :
    (ofFragment p.text).tokens = p.tokens.dropWhile (· = "") := by
  rw [ofFragment, hashless_text, toList_text]
  obtain ⟨ts⟩ := p
  induction ts with
  | nil => rfl
  | cons t ts ih =>
    have slash : (spelling (t :: ts)).dropWhile (· = '/') =
        (t.toList ++ spelling ts).dropWhile (· = '/') := List.dropWhile_cons_of_pos (by decide)
    rw [slash]
    by_cases empty : t = ""
    · subst empty
      exact ih fun u member => plain u (List.mem_cons_of_mem "" member)
    · rw [List.dropWhile_cons_of_neg (by simpa using empty)]
      cases first : t.toList with
      | nil => exact absurd (String.toList_eq_nil_iff.mp first) empty
      | cons c rest =>
        have other : c ≠ '/' := fun same =>
          plain t List.mem_cons_self (first ▸ same ▸ List.mem_cons_self)
        have whole := ofParts_spelling plain
        rw [first] at whole
        rw [List.cons_append, List.dropWhile_cons_of_neg (by simpa using other)]
        exact congrArg Pointer.tokens whole

theorem find?_ofFragment (plain : p.Plain) (document : Json) :
    (ofFragment p.text).find? document = p.find? document := by
  rw [find?, find?, ofFragment_text plain, List.dropWhile_idempotent]

end Pointer

section Places
variable {p q : Pointer}

mutual
theorem Json.places_plain {p : Pointer} (plain : p.Plain) : ∀ v : Json, q ∈ v.places p → q.Plain
  | .null, member | .bool _, member | .number _, member | .string _, member =>
    List.mem_singleton.mp member ▸ plain
  | .array xs, member => by
    rcases List.mem_cons.mp member with rfl | member
    · exact plain
    · exact Json.placesItems_plain plain 0 xs member
  | .object ms, member => by
    rcases List.mem_cons.mp member with rfl | member
    · exact plain
    · exact Json.placesMembers_plain plain ms member

theorem Json.placesItems_plain {p : Pointer} (plain : p.Plain) (i : Nat) :
    ∀ xs : List Json, q ∈ Json.placesItems p i xs → q.Plain
  | [], member => nomatch member
  | x :: xs, member => by
    rcases List.mem_append.mp member with member | member
    · exact Json.places_plain (plain.item i) x member
    · exact Json.placesItems_plain plain (i + 1) xs member

theorem Json.placesMembers_plain {p : Pointer} (plain : p.Plain) :
    ∀ ms : List (String × Json), q ∈ Json.placesMembers p ms → q.Plain
  | [], member => nomatch member
  | (key, x) :: ms, member => by
    rcases List.mem_append.mp member with member | member
    · exact Json.places_plain (plain.child key) x member
    · exact Json.placesMembers_plain plain ms member
end

namespace Spec

open Schema

mutual
theorem schemaPlaces_plain {p : Pointer} (plain : p.Plain) : ∀ v : Json, q ∈ schemaPlaces p v → q.Plain
  | .null, member | .bool _, member | .number _, member | .string _, member => nomatch member
  | .array xs, member => schemaPlacesItems_plain plain 0 xs member
  | .object ms, member => schemaPlacesMembers_plain plain ms member

theorem schemaPlacesItems_plain {p : Pointer} (plain : p.Plain) (i : Nat) :
    ∀ xs : List Json, q ∈ schemaPlacesItems p i xs → q.Plain
  | [], member => nomatch member
  | x :: xs, member => by
    rcases List.mem_append.mp member with member | member
    · exact schemaPlaces_plain (plain.item i) x member
    · exact schemaPlacesItems_plain plain (i + 1) xs member

theorem schemaPlacesMembers_plain {p : Pointer} (plain : p.Plain) :
    ∀ ms : List (String × Json), q ∈ schemaPlacesMembers p ms → q.Plain
  | [], member => nomatch member
  | (key, x) :: ms, member => by
    rcases List.mem_append.mp member with member | member
    · split at member
      · rw [List.mem_singleton.mp member]
        exact plain.child key
      · exact schemaPlaces_plain (plain.child key) x member
    · exact schemaPlacesMembers_plain plain ms member
end

variable {document : Json}

theorem roots_plain (root : p ∈ roots document) : p.Plain := by
  rcases List.mem_append.mp root with defined | found
  · obtain ⟨⟨place, key, v⟩, member, rfl⟩ := List.mem_map.mp defined
    obtain ⟨c, container, member⟩ := List.mem_flatMap.mp member
    have plain : c.Plain := by
      rcases List.mem_cons.mp container with rfl | container
      · unfold Pointer.Plain
        decide
      · rw [List.mem_singleton.mp container]
        unfold Pointer.Plain
        decide
    split at member
    · obtain ⟨e, _, same⟩ := List.mem_map.mp member
      cases same
      exact plain.child e.1
    · cases member
  · split at found
    · refine schemaPlaces_plain (Pointer.Plain.child ?_ "paths") _ found
      exact fun _ => nofun
    · cases found

theorem spots_plain (spot : p ∈ spots document) : p.Plain := by
  obtain ⟨start, started, below⟩ := mem_spots.mp spot
  have plain : start.Plain := by
    rcases List.mem_append.mp started with root | named
    · exact roots_plain root
    · obtain ⟨reference, _, aimed⟩ := List.mem_filterMap.mp named
      cases target : target .root reference with
      | error e =>
        rw [target] at aimed
        cases aimed
      | ok q =>
        rw [target] at aimed
        cases aimed
        obtain ⟨_, _, _, _, read⟩ := target_eq_ok.mp target
        exact Pointer.ofChars?_plain read
  rcases below with rfl | ⟨v, _, below⟩
  · exact plain
  · exact Json.places_plain plain v below

end Spec
end Places
end ApiPayload
