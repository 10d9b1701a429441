import ApiPayload.Json.Reader
import ApiPayload.Proofs.Built

/-
Keys of objects. What is read from a text repeats none, and where none is repeated an entry is found
under its key.
-/
namespace ApiPayload

theorem Entries.get?_of_mem {κ : Type u} {α : Type v} [DecidableEq κ] {es : List (κ × α)}
    (distinct : (keys es).Nodup) {key : κ} {value : α} (member : (key, value) ∈ es) :
    get? key es = some value := by
  induction es with
  | nil => cases member
  | cons e rest ih =>
    obtain ⟨other, a⟩ := e
    obtain ⟨fresh, later⟩ := List.nodup_cons.mp distinct
    rcases List.mem_cons.mp member with same | member
    · cases same
      simp [get?]
    · have different : other ≠ key := by
        rintro rfl
        exact fresh (List.mem_map.mpr ⟨_, member, rfl⟩)
      simp only [get?, different, if_false]
      exact ih later member

theorem Entries.get?_perm {κ : Type u} {α : Type v} [DecidableEq κ] {es es' : List (κ × α)}
    (moved : es.Perm es') (distinct : (keys es).Nodup) (key : κ) : get? key es' = get? key es := by
  have distinct' : (keys es').Nodup := (moved.map Prod.fst).nodup_iff.mp distinct
  refine Option.ext fun value => ⟨fun found => ?_, fun found => ?_⟩
  · exact get?_of_mem distinct (moved.mem_iff.mpr (mem_of_get? found))
  · exact get?_of_mem distinct' (moved.mem_iff.mp (mem_of_get? found))

namespace Json

theorem keysUniqueItems_iff {xs : List Json} : KeysUniqueItems xs ↔ ∀ x ∈ xs, x.KeysUnique := by
  induction xs with
  | nil => simp [KeysUniqueItems]
  | cons x rest ih => simp [KeysUniqueItems, ih]

theorem keysUniqueMembers_iff {ms : List (String × Json)} :
    KeysUniqueMembers ms ↔ ∀ m ∈ ms, m.2.KeysUnique := by
  induction ms with
  | nil => simp [KeysUniqueMembers]
  | cons m rest ih => simp [KeysUniqueMembers, ih]

theorem KeysUnique.insert {ms : List (String × Json)} {x : Json} (whole : (object ms).KeysUnique)
    (one : x.KeysUnique) (key : String) : (object (Entries.insert key x ms)).KeysUnique := by
  refine ⟨Entries.keys_insert_nodup whole.1 key x, keysUniqueMembers_iff.mpr fun m member => ?_⟩
  have members := keysUniqueMembers_iff.mp whole.2
  clear whole
  induction ms with
  | nil =>
    obtain rfl := List.mem_singleton.mp member
    exact one
  | cons e rest ih =>
    obtain ⟨other, y⟩ := e
    unfold Entries.insert at member
    split at member
    · rcases List.mem_cons.mp member with rfl | member
      · exact one
      · exact members m (List.mem_cons_of_mem _ member)
    · rcases List.mem_cons.mp member with rfl | member
      · exact members _ List.mem_cons_self
      · exact ih member fun m member => members m (List.mem_cons_of_mem _ member)

namespace Reader

/-- Whatever value is read, no object in it repeats a key. -/
def Gives (r : Except ReadError (Json × Cursor)) : Prop :=
  ∀ v c, r = .ok (v, c) → v.KeysUnique

theorem gives_error (e : ReadError) : Gives (.error e) := fun _ _ h => nomatch h

theorem gives_ok {v : Json} (h : v.KeysUnique) (c : Cursor) : Gives (.ok (v, c)) := by
  intro w _ same
  cases same
  exact h

theorem gives_failAhead (c : Cursor) (fault : ReadFault) : Gives (c.failAhead fault) := by
  unfold Cursor.failAhead
  split <;> exact gives_error _

theorem gives_bind {γ : Type} {x : Except ReadError γ} {f : γ → Except ReadError (Json × Cursor)}
    (h : ∀ a, x = .ok a → Gives (f a)) : Gives (x >>= f) := by
  cases x with
  | error e => exact gives_error e
  | ok a => exact h a rfl

theorem gives_ofOption (c : Cursor) (n : Option Number) : Gives (ofOption c n) := by
  cases n with
  | none => exact gives_error _
  | some n => exact gives_ok (v := .number n) (by simp [KeysUnique]) c

theorem gives_exponentPart (negative : Bool) (significand : Nat) (scale : Int) (c : Cursor) :
    Gives (exponentPart negative significand scale c) := by
  unfold exponentPart
  split
  split
  · exact gives_error _
  · split
    · split
      · exact gives_ofOption _ _
      · split
        · exact gives_error _
        · exact gives_ok (by simp [KeysUnique]) _
    · exact gives_failAhead _ _

theorem gives_number (negative : Bool) (c : Cursor) : Gives (number negative c) := by
  unfold number
  dsimp only
  split
  · split
    · exact gives_error _
    · exact gives_failAhead _ _
  · exact gives_failAhead _ _
  · split
    · split
      · split
        · exact gives_error _
        · exact gives_failAhead _ _
      · split
        · exact gives_exponentPart _ _ _ _
        · exact gives_ofOption _ _
    · split
      · exact gives_exponentPart _ _ _ _
      · exact gives_ofOption _ _

theorem gives_word {v : Json} (h : v.KeysUnique) (cs : List Char) (c : Cursor) :
    Gives (word v cs c) := by
  induction cs generalizing c with
  | nil => exact gives_ok h c
  | cons x rest ih =>
    unfold word
    split
    · exact gives_error _
    · split
      · exact ih _
      · exact gives_failAhead _ _

section Containers

variable {item : Cursor → Except ReadError (Json × Cursor)} (each : ∀ c, Gives (item c))
include each

/-- One more item, and then those behind it. -/
theorem gives_more_items {fuel : Nat} {acc : List Json} (read : ∀ x ∈ acc, x.KeysUnique)
    (behind : ∀ c acc, (∀ x ∈ acc, x.KeysUnique) → Gives (items item fuel c acc)) (c : Cursor) :
    Gives (do
      let (v, c) ← item c
      items item fuel c (v :: acc)) := by
  refine gives_bind fun made found => behind made.2 (made.1 :: acc) ?_
  intro x member
  rcases List.mem_cons.mp member with rfl | member
  · exact each c made.1 made.2 found
  · exact read x member

/-- One more member, and then those behind it. -/
theorem gives_more_members {fuel : Nat} {acc : List (String × Json)} (read : (object acc).KeysUnique)
    (behind : ∀ c acc, (object acc).KeysUnique → Gives (members item fuel c false acc)) (c : Cursor) :
    Gives (do
      let (key, c) ← string (Cursor.advance c)
      let c := c.skipBlanks
      match c.peek? with
      | none => c.fail .endInObject
      | some ':' =>
        let (v, c) ← item c.advance
        members item fuel c false (Entries.insert key v acc)
      | some _ => c.failAhead .expectedColon) := by
  refine gives_bind fun named _ => ?_
  dsimp only
  split
  · exact gives_error _
  · refine gives_bind fun made found => behind made.2 (Entries.insert named.1 made.1 acc) ?_
    exact read.insert (each _ made.1 made.2 found) named.1
  · exact gives_failAhead _ _

theorem gives_items (fuel : Nat) (c : Cursor) {acc : List Json} (read : ∀ x ∈ acc, x.KeysUnique) :
    Gives (items item fuel c acc) := by
  induction fuel generalizing c acc with
  | zero => exact gives_error _
  | succ fuel ih =>
    have more := gives_more_items each read fun c _ => ih c
    unfold items
    dsimp only
    split
    · exact gives_error _
    · have all : (array acc.reverse).KeysUnique := by
        rw [KeysUnique, keysUniqueItems_iff]
        exact fun x member => read x (List.mem_reverse.mp member)
      exact gives_ok all _
    · split
      · exact more _
      · split
        · split
          · exact gives_error _
          · exact gives_failAhead _ _
          · exact more _
        · exact gives_failAhead _ _

theorem gives_members (fuel : Nat) (c : Cursor) (first : Bool) {acc : List (String × Json)}
    (read : (object acc).KeysUnique) : Gives (members item fuel c first acc) := by
  induction fuel generalizing c first acc with
  | zero => exact gives_error _
  | succ fuel ih =>
    have more := gives_more_members each read fun c _ => ih c false
    unfold members
    dsimp only
    split
    · exact gives_error _
    · exact gives_ok read _
    · split
      · split
        · exact more _
        · exact gives_failAhead _ _
      · split
        · split
          · exact gives_error _
          · exact more _
          · exact gives_failAhead _ _
          · exact gives_failAhead _ _
        · exact gives_failAhead _ _

end Containers

/-- Words, numbers and texts hold no objects. -/
theorem gives_value (depth : Nat) (c : Cursor) : Gives (value depth c) := by
  have plain : Json.null.KeysUnique ∧ ∀ b, (Json.bool b).KeysUnique := by simp [KeysUnique]
  induction depth generalizing c with
  | zero =>
    unfold value
    dsimp only
    split
    · exact gives_error _
    · exact gives_word plain.1 _ _
    · exact gives_word (plain.2 true) _ _
    · exact gives_word (plain.2 false) _ _
    · exact gives_number _ _
    · exact gives_bind fun (s, _) _ => gives_ok (v := .string s) (by simp [KeysUnique]) _
    · exact gives_failAhead _ _
    · exact gives_failAhead _ _
    · split
      · exact gives_number _ _
      · exact gives_failAhead _ _
  | succ depth ih =>
    unfold value
    dsimp only
    split
    · exact gives_error _
    · exact gives_word plain.1 _ _
    · exact gives_word (plain.2 true) _ _
    · exact gives_word (plain.2 false) _ _
    · exact gives_number _ _
    · exact gives_bind fun (s, _) _ => gives_ok (v := .string s) (by simp [KeysUnique]) _
    · exact gives_items ih _ _ fun _ none => nomatch none
    · exact gives_members ih _ _ _ (by simp [KeysUnique, KeysUniqueMembers, Entries.keys])
    · split
      · exact gives_number _ _
      · exact gives_failAhead _ _

end Reader

/-- A repeated key in a text overwrites, so no object that was read has one. -/
theorem keysUnique_of_read {text : String} {v : Json} (h : read text = .ok v) : v.KeysUnique := by
  unfold read at h
  cases first : Reader.value Reader.maxDepth (.start text.toList) with
  | error e =>
    rw [first] at h
    cases h
  | ok found =>
    obtain ⟨w, c⟩ := found
    rw [first] at h
    dsimp only [bind, Except.bind] at h
    split at h
    · cases h
      exact Reader.gives_value _ _ v c first
    · unfold Cursor.failAhead at h
      split at h <;> cases h

end Json
end ApiPayload
