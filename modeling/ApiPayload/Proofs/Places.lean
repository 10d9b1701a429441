import Mathlib.Data.List.TakeWhile
import ApiPayload.Proofs.Walks
import ApiPayload.Schema.Spec

/-
Places of fragments. A pointer made from a key or an index leads to what stands there. All places
that merging can come to lie at or below its start and the places that texts of the document name,
so the walk over them is deep enough to list all of them.
-/
namespace ApiPayload

namespace Pointer

theorem unescapeChars_cons {c : Char} (plain : c ≠ '~') (cs : List Char) :
    unescapeChars (c :: cs) = c :: unescapeChars cs := by
  rw [unescapeChars]
  · rintro rest rfl
    exact absurd rfl plain
  · rintro rest rfl
    exact absurd rfl plain

theorem unescapeChars_escape (cs : List Char) : unescapeChars (cs.flatMap escapeChar) = cs := by
  induction cs with
  | nil => rfl
  | cons c rest ih =>
    rw [List.flatMap_cons, escapeChar]
    by_cases tilde : c = '~'
    · subst tilde
      rw [if_pos rfl]
      exact congrArg _ ih
    · rw [if_neg tilde]
      by_cases slash : c = '/'
      · subst slash
        rw [if_pos rfl]
        exact congrArg _ ih
      · rw [if_neg slash]
        exact (unescapeChars_cons tilde _).trans (congrArg _ ih)

theorem unescape_escape (key : String) : unescape (escape key) = key := by
  rw [unescape, escape, String.toList_ofList, unescapeChars_escape, String.ofList_toList]

theorem escape_injective {key other : String} (h : escape key = escape other) : key = other := by
  rw [← unescape_escape key, h, unescape_escape]

theorem escape_ne_empty {key : String} (h : key ≠ "") : escape key ≠ "" := by
  intro empty
  exact h (escape_injective (empty.trans (show "" = escape "" from rfl)))

theorem child_injective {p : Pointer} {key other : String} (h : p.child key = p.child other) :
    key = other := by
  simp only [child, Pointer.mk.injEq, List.append_cancel_left_eq, List.cons.injEq, and_true] at h
  exact escape_injective h

theorem unescapeChars_plain {cs : List Char} (plain : '~' ∉ cs) : unescapeChars cs = cs := by
  induction cs with
  | nil => rfl
  | cons c rest ih =>
    have here : c ≠ '~' := fun same => plain (same ▸ List.mem_cons_self)
    rw [unescapeChars_cons here, ih fun member => plain (List.mem_cons_of_mem c member)]

/-- Digits have no sign in front. -/
theorem unsigned_digits (cs : List Char) : (∀ c ∈ cs, c.isDigit = true) →
    (match cs with | '+' :: rest => rest | cs => cs) = cs := by
  intro digits
  split
  · exact absurd (digits '+' List.mem_cons_self) (by decide)
  · rfl

theorem indexOf?_toString (i : Nat) : indexOf? (unescape (toString i)) = some i := by
  have isDigit : ∀ c ∈ Nat.toDigits 10 i, c.isDigit = true := fun c member =>
    Nat.isDigit_of_mem_toDigits (by decide) (by decide) member
  have written : (unescape (toString i)).toList = Nat.toDigits 10 i := by
    have plain : '~' ∉ Nat.toDigits 10 i := fun member => absurd (isDigit _ member) (by decide)
    rw [unescape, show toString i = i.repr from rfl, Nat.repr_eq_ofList_toDigits,
      String.toList_ofList, String.toList_ofList, unescapeChars_plain plain]
  have value : (Nat.toDigits 10 i).foldl (fun n d => n * 10 + (d.toNat - '0'.toNat)) 0 = i := by
    simp only [Nat.mul_comm _ 10]
    exact Nat.ofDigitChars_toDigits (by decide) (by decide)
  have read : ∀ ds, ds = Nat.toDigits 10 i → (if ds.isEmpty ∨ ¬ ds.all Char.isDigit then none
      else some (ds.foldl (fun n d => n * 10 + (d.toNat - '0'.toNat)) 0)) = some i := by
    rintro ds rfl
    have valid : ¬ ((Nat.toDigits 10 i).isEmpty ∨ ¬ (Nat.toDigits 10 i).all Char.isDigit) := by
      rw [List.all_eq_true.mpr isDigit]
      simp [Nat.toDigits_ne_nil]
    rw [if_neg valid, value]
  simp only [indexOf?, written]
  exact read _ (unsigned_digits _ isDigit)

theorem walk_append (ts us : List String) (v : Json) :
    walk (ts ++ us) v = (walk ts v).bind (walk us) := by
  induction ts generalizing v with
  | nil => rfl
  | cons t rest ih =>
    simp only [List.cons_append, walk, Option.bind_assoc]
    exact congrArg _ (funext ih)

/-- Once a token leads somewhere, none behind it is passed over. -/
theorem dropWhile_append {p : Pointer} {t : String} (leads : t ≠ "" ∨ ∃ u ∈ p.tokens, u ≠ "") :
    (p.tokens ++ [t]).dropWhile (· = "") = p.tokens.dropWhile (· = "") ++ [t] := by
  rw [List.dropWhile_append]
  split
  · rename_i empty
    have all : ∀ u ∈ p.tokens, u = "" := by
      simpa [List.dropWhile_eq_nil_iff] using List.isEmpty_iff.mp empty
    rcases leads with leads | ⟨u, member, leads⟩
    · rw [List.isEmpty_iff.mp empty]
      simp [leads]
    · exact absurd (all u member) leads
  · rfl

theorem find?_append {p : Pointer} {t : String} (leads : t ≠ "" ∨ ∃ u ∈ p.tokens, u ≠ "")
    (document : Json) : (⟨p.tokens ++ [t]⟩ : Pointer).find? document =
      (p.find? document).bind (step t) := by
  have one : ∀ v, walk [t] v = step t v := by
    intro v
    rw [walk]
    cases step t v <;> rfl
  rw [find?, find?, dropWhile_append leads, walk_append]
  exact congrArg _ (funext one)

theorem find?_child {p : Pointer} {key : String} {document : Json} {ms : List (String × Json)}
    (found : p.find? document = some (.object ms)) (leads : key ≠ "" ∨ ∃ u ∈ p.tokens, u ≠ "") :
    (p.child key).find? document = Entries.get? key ms := by
  rw [child, find?_append (leads.imp_left escape_ne_empty), found, Option.bind_some, step,
    unescape_escape]

theorem toString_ne_empty (i : Nat) : toString i ≠ "" := by
  intro empty
  have index := indexOf?_toString i
  rw [empty] at index
  cases index

theorem find?_item {p : Pointer} {document : Json} {xs : List Json}
    (found : p.find? document = some (.array xs)) (i : Nat) :
    (p.item i).find? document = xs[i]? := by
  have leads := toString_ne_empty i
  rw [item, find?_append (.inl leads), found, Option.bind_some, step, indexOf?_toString,
    Option.bind_some]

section Parts
variable {P : Json → Prop} (items : ∀ xs x, P (.array xs) → x ∈ xs → P x)
  (members : ∀ ms key x, P (.object ms) → (key, x) ∈ ms → P x)
include items members

/-- What the parts of a value inherit from it holds of every value found in it. -/
theorem walk_induction {ts : List String} {v w : Json} (whole : P v) (found : walk ts v = some w) : P w := by
  induction ts generalizing v with
  | nil =>
    cases found
    exact whole
  | cons t rest ih =>
    obtain ⟨x, first, later⟩ := Option.bind_eq_some_iff.mp found
    refine ih ?_ later
    cases v with
    | array xs =>
      obtain ⟨i, _, present⟩ := Option.bind_eq_some_iff.mp first
      exact items xs x whole (List.mem_of_getElem? present)
    | object ms => exact members ms _ x whole (Entries.mem_of_get? first)
    | _ => cases first

theorem find?_induction {p : Pointer} {document v : Json} (whole : P document)
    (found : p.find? document = some v) : P v :=
  walk_induction items members whole found

end Parts

end Pointer

namespace Json

mutual
/-- The texts among the values in a value. -/
def texts : Json → List String
  | string s => [s]
  | array xs => textsItems xs
  | object ms => textsMembers ms
  | _ => []

def textsItems : List Json → List String
  | [] => []
  | x :: xs => texts x ++ textsItems xs

def textsMembers : List (String × Json) → List String
  | [] => []
  | (_, x) :: ms => texts x ++ textsMembers ms
end

mutual
/-- Pointers to all values in a value that stands at a place. -/
def places (p : Pointer) : Json → List Pointer
  | array xs => p :: placesItems p 0 xs
  | object ms => p :: placesMembers p ms
  | _ => [p]

def placesItems (p : Pointer) (i : Nat) : List Json → List Pointer
  | [] => []
  | x :: xs => places (p.item i) x ++ placesItems p (i + 1) xs

def placesMembers (p : Pointer) : List (String × Json) → List Pointer
  | [] => []
  | (key, x) :: ms => places (p.child key) x ++ placesMembers p ms
end

mutual
theorem length_texts : ∀ v : Json, (texts v).length ≤ size v
  | null | bool _ | number _ => Nat.zero_le _
  | string _ => Nat.le_refl 1
  | array xs => by
    have := length_textsItems xs
    simp only [texts, size]
    omega
  | object ms => by
    have := length_textsMembers ms
    simp only [texts, size]
    omega

theorem length_textsItems : ∀ xs : List Json, (textsItems xs).length ≤ sizeItems xs
  | [] => Nat.le_refl 0
  | x :: xs => by
    have := length_texts x
    have := length_textsItems xs
    simp only [textsItems, sizeItems, List.length_append]
    omega

theorem length_textsMembers : ∀ ms : List (String × Json), (textsMembers ms).length ≤ sizeMembers ms
  | [] => Nat.le_refl 0
  | (_, x) :: ms => by
    have := length_texts x
    have := length_textsMembers ms
    simp only [textsMembers, sizeMembers, List.length_append]
    omega
end

mutual
theorem length_places (p : Pointer) : ∀ v : Json, (places p v).length = size v
  | null | bool _ | number _ | string _ => rfl
  | array xs => by
    simp only [places, size, List.length_cons, length_placesItems p 0 xs]
    omega
  | object ms => by
    simp only [places, size, List.length_cons, length_placesMembers p ms]
    omega

theorem length_placesItems (p : Pointer) (i : Nat) :
    ∀ xs : List Json, (placesItems p i xs).length = sizeItems xs
  | [] => rfl
  | x :: xs => by
    simp only [placesItems, sizeItems, List.length_append, length_places (p.item i) x,
      length_placesItems p (i + 1) xs]

theorem length_placesMembers (p : Pointer) :
    ∀ ms : List (String × Json), (placesMembers p ms).length = sizeMembers ms
  | [] => rfl
  | (key, x) :: ms => by
    simp only [placesMembers, sizeMembers, List.length_append, length_places (p.child key) x,
      length_placesMembers p ms]
end

theorem texts_of_mem_items {x : Json} {xs : List Json} (member : x ∈ xs) :
    texts x ⊆ textsItems xs := by
  induction xs with
  | nil => cases member
  | cons y rest ih =>
    rw [textsItems]
    rcases List.mem_cons.mp member with rfl | member
    · exact List.subset_append_left _ _
    · exact List.Subset.trans (ih member) (List.subset_append_right _ _)

theorem texts_of_mem_members {key : String} {x : Json} {ms : List (String × Json)}
    (member : (key, x) ∈ ms) : texts x ⊆ textsMembers ms := by
  induction ms with
  | nil => cases member
  | cons m rest ih =>
    obtain ⟨other, y⟩ := m
    rw [textsMembers]
    rcases List.mem_cons.mp member with same | member
    · cases same
      exact List.subset_append_left _ _
    · exact List.Subset.trans (ih member) (List.subset_append_right _ _)

theorem places_self (p : Pointer) (v : Json) : p ∈ places p v := by
  cases v <;> simp [places]

theorem places_item {p : Pointer} {xs : List Json} {i : Nat} {x : Json} (present : xs[i]? = some x) :
    places (p.item i) x ⊆ places p (.array xs) := by
  have from_index : ∀ n, places (p.item (n + i)) x ⊆ placesItems p n xs := by
    induction xs generalizing i with
    | nil => cases present
    | cons y rest ih =>
      intro n
      rw [placesItems]
      cases i with
      | zero =>
        cases present
        exact List.subset_append_left _ _
      | succ i =>
        have later := ih present (n + 1)
        rw [show n + 1 + i = n + (i + 1) by omega] at later
        exact List.Subset.trans later (List.subset_append_right _ _)
  have here := from_index 0
  rw [Nat.zero_add] at here
  exact List.Subset.trans here (List.subset_cons_self _ _)

theorem places_member {p : Pointer} {ms : List (String × Json)} {key : String} {x : Json}
    (present : Entries.get? key ms = some x) : places (p.child key) x ⊆ places p (.object ms) := by
  have listed : places (p.child key) x ⊆ placesMembers p ms := by
    have member := Entries.mem_of_get? present
    clear present
    induction ms with
    | nil => cases member
    | cons m rest ih =>
      obtain ⟨other, y⟩ := m
      rw [placesMembers]
      rcases List.mem_cons.mp member with same | member
      · cases same
        exact List.subset_append_left _ _
      · exact List.Subset.trans (ih member) (List.subset_append_right _ _)
  exact List.Subset.trans listed (List.subset_cons_self _ _)

mutual
/-- All values in a value that stands at a place, each with its place. -/
def spots (p : Pointer) : Json → List (Pointer × Json)
  | array xs => (p, .array xs) :: spotsItems p 0 xs
  | object ms => (p, .object ms) :: spotsMembers p ms
  | v => [(p, v)]

def spotsItems (p : Pointer) (i : Nat) : List Json → List (Pointer × Json)
  | [] => []
  | x :: xs => spots (p.item i) x ++ spotsItems p (i + 1) xs

def spotsMembers (p : Pointer) : List (String × Json) → List (Pointer × Json)
  | [] => []
  | (key, x) :: ms => spots (p.child key) x ++ spotsMembers p ms
end

mutual
theorem length_spots (p : Pointer) : ∀ v : Json, (spots p v).length = size v
  | null | bool _ | number _ | string _ => rfl
  | array xs => by
    rw [spots, size, List.length_cons, length_spotsItems p 0 xs, Nat.add_comm]
  | object ms => by
    rw [spots, size, List.length_cons, length_spotsMembers p ms, Nat.add_comm]

theorem length_spotsItems (p : Pointer) (i : Nat) :
    ∀ xs : List Json, (spotsItems p i xs).length = sizeItems xs
  | [] => rfl
  | x :: xs => by
    rw [spotsItems, sizeItems, List.length_append, length_spots (p.item i) x, length_spotsItems p (i + 1) xs]

theorem length_spotsMembers (p : Pointer) :
    ∀ ms : List (String × Json), (spotsMembers p ms).length = sizeMembers ms
  | [] => rfl
  | (key, x) :: ms => by
    rw [spotsMembers, sizeMembers, List.length_append, length_spots (p.child key) x, length_spotsMembers p ms]
end

theorem spots_self (p : Pointer) (v : Json) : (p, v) ∈ spots p v := by
  cases v <;> simp [spots]

mutual
/-- What stands in a part stands in the whole. -/
theorem spots_trans {q : Pointer} {x : Json} (p : Pointer) :
    ∀ v : Json, (q, x) ∈ spots p v → spots q x ⊆ spots p v
  | null, inside | bool _, inside | number _, inside | string _, inside => by
    cases List.mem_singleton.mp inside
    exact List.Subset.refl _
  | array xs, inside => by
    rcases List.mem_cons.mp inside with same | inside
    · cases same
      exact List.Subset.refl _
    · exact List.subset_cons_of_subset _ (spotsItems_trans p 0 xs inside)
  | object ms, inside => by
    rcases List.mem_cons.mp inside with same | inside
    · cases same
      exact List.Subset.refl _
    · exact List.subset_cons_of_subset _ (spotsMembers_trans p ms inside)

theorem spotsItems_trans {q : Pointer} {x : Json} (p : Pointer) (i : Nat) :
    ∀ xs : List Json, (q, x) ∈ spotsItems p i xs → spots q x ⊆ spotsItems p i xs
  | [], inside => absurd inside List.not_mem_nil
  | y :: ys, inside => by
    rcases List.mem_append.mp inside with inside | inside
    · exact List.subset_append_of_subset_left _ (spots_trans (p.item i) y inside)
    · exact List.subset_append_of_subset_right _ (spotsItems_trans p (i + 1) ys inside)

theorem spotsMembers_trans {q : Pointer} {x : Json} (p : Pointer) :
    ∀ ms : List (String × Json), (q, x) ∈ spotsMembers p ms → spots q x ⊆ spotsMembers p ms
  | [], inside => absurd inside List.not_mem_nil
  | (key, y) :: ms, inside => by
    rcases List.mem_append.mp inside with inside | inside
    · exact List.subset_append_of_subset_left _ (spots_trans (p.child key) y inside)
    · exact List.subset_append_of_subset_right _ (spotsMembers_trans p ms inside)
end

theorem spotsItems_of_getElem? {p : Pointer} {xs : List Json} {i : Nat} {x : Json} (present : xs[i]? = some x)
    (first : Nat) : (p.item (first + i), x) ∈ spotsItems p first xs := by
  induction xs generalizing i first with
  | nil => cases present
  | cons y rest ih =>
    rw [spotsItems]
    cases i with
    | zero =>
      cases present
      exact List.mem_append_left _ (spots_self _ _)
    | succ i =>
      have later := ih present (first + 1)
      rw [Nat.add_assoc, Nat.add_comm 1 i] at later
      exact List.mem_append_right _ later

theorem spotsMembers_of_mem {p : Pointer} {ms : List (String × Json)} {key : String} {x : Json}
    (member : (key, x) ∈ ms) : (p.child key, x) ∈ spotsMembers p ms := by
  induction ms with
  | nil => cases member
  | cons m rest ih =>
    obtain ⟨other, y⟩ := m
    rw [spotsMembers]
    rcases List.mem_cons.mp member with same | member
    · cases same
      exact List.mem_append_left _ (spots_self _ _)
    · exact List.mem_append_right _ (ih member)

section Inside
variable {p q : Pointer} {v x : Json} {xs : List Json} {ms : List (String × Json)} {key : String} {i : Nat}

theorem spots_item (inside : (q, .array xs) ∈ spots p v) (present : xs[i]? = some x) :
    (q.item i, x) ∈ spots p v := by
  have here := spotsItems_of_getElem? (p := q) present 0
  rw [Nat.zero_add] at here
  exact spots_trans p v inside (List.mem_cons_of_mem _ here)

theorem spots_member (inside : (q, .object ms) ∈ spots p v) (member : (key, x) ∈ ms) :
    (q.child key, x) ∈ spots p v :=
  spots_trans p v inside (List.mem_cons_of_mem _ (spotsMembers_of_mem member))

end Inside

theorem texts_of_find? {p : Pointer} {document v : Json} (found : p.find? document = some v) :
    texts v ⊆ texts document :=
  Pointer.find?_induction (P := fun v => texts v ⊆ texts document)
    (fun _ _ here member => List.Subset.trans (texts_of_mem_items member) here)
    (fun _ _ _ here member => List.Subset.trans (texts_of_mem_members member) here)
    (List.Subset.refl _) found

theorem size_of_find? {p : Pointer} {document v : Json} (found : p.find? document = some v) :
    size v ≤ size document := by
  refine Pointer.find?_induction (P := fun v => size v ≤ size document) ?_ ?_
    (Nat.le_refl _) found
  · intro xs x here member
    have := size_le_of_mem_items member
    simp only [size] at here
    omega
  · intro ms key x here member
    have := size_le_of_mem_members member
    simp only [size] at here
    omega

end Json
end ApiPayload
