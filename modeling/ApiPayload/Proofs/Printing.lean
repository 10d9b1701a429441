import ApiPayload.Proofs.Keys
import ApiPayload.Proofs.Tokens

/-
Values and their texts. A printed value reads back as it was, on one line or on many, as long as its numbers do
and not too many containers stand around one another.
-/
namespace ApiPayload

theorem Entries.insert_fresh {κ : Type u} {α : Type v} [DecidableEq κ] {es : List (κ × α)} {key : κ}
    (fresh : key ∉ keys es) (value : α) : insert key value es = es ++ [(key, value)] := by
  induction es with
  | nil => rfl
  | cons e rest ih =>
    obtain ⟨other, a⟩ := e
    have different : other ≠ key := fun same => fresh (same ▸ List.mem_cons_self)
    rw [insert, if_neg different, ih fun later => fresh (List.mem_cons_of_mem other later)]
    rfl

/-- Whole numbers of 64 bits, and other numbers that are read as they are written. -/
def Number.Legible : Number → Prop
  | .int i => -9223372036854775808 ≤ i ∧ i < 18446744073709551616
  | .float x => ∃ p, Json.Reader.value 0 (.start (Number.float x).render.toList) =
      .ok (.number (.float x), ⟨[], p⟩)

namespace Json

open Reader

mutual
/-- Values with legible numbers and no more than so many containers around one another. -/
def Legible : Nat → Json → Prop
  | _, number n => n.Legible
  | depth, array xs => 0 < depth ∧ LegibleItems (depth - 1) xs
  | depth, object ms => 0 < depth ∧ LegibleMembers (depth - 1) ms
  | _, _ => True

def LegibleItems : Nat → List Json → Prop
  | _, [] => True
  | depth, x :: xs => Legible depth x ∧ LegibleItems depth xs

def LegibleMembers : Nat → List (String × Json) → Prop
  | _, [] => True
  | depth, (_, x) :: ms => Legible depth x ∧ LegibleMembers depth ms
end

/-- Blanks between the parts of a text: before the items at a level, and after the colon of a member. -/
structure Layout where
  line : Nat → List Char
  gap : List Char
  blank_line : ∀ level, ∀ c ∈ line level, Cursor.isBlank c = true
  blank_gap : ∀ c ∈ gap, Cursor.isBlank c = true

mutual
def Layout.chars (l : Layout) (level : Nat) : Json → List Char
  | array (x :: xs) => '[' :: (l.line (level + 1) ++ l.chars (level + 1) x ++
      l.moreItems (level + 1) xs ++ l.line level ++ [']'])
  | object ((k, x) :: ms) => '\x7b' :: (l.line (level + 1) ++ quoted k ++ ':' :: (l.gap ++
      l.chars (level + 1) x ++ l.moreMembers (level + 1) ms ++ l.line level ++ ['\x7d']))
  | v => v.chars

def Layout.moreItems (l : Layout) (level : Nat) : List Json → List Char
  | [] => []
  | x :: xs => ',' :: (l.line level ++ l.chars level x ++ l.moreItems level xs)

def Layout.moreMembers (l : Layout) (level : Nat) : List (String × Json) → List Char
  | [] => []
  | (k, x) :: ms => ',' :: (l.line level ++ quoted k ++ ':' :: (l.gap ++ l.chars level x ++
      l.moreMembers level ms))
end

/-- All on one line. -/
def Layout.plain : Layout where
  line _ := []
  gap := []
  blank_line _ _ none := nomatch none
  blank_gap _ none := nomatch none

/-- Each item on a line of its own, indented by its level. -/
def Layout.spread : Layout where
  line := lineAt
  gap := [' ']
  blank_line level c member := by
    rcases List.mem_cons.mp member with rfl | member
    · decide
    · rw [(List.mem_replicate.mp member).2]
      decide
  blank_gap c member := by
    rw [List.mem_singleton.mp member]
    decide

@[simp] theorem Layout.plain_line (level : Nat) : Layout.plain.line level = [] := rfl

@[simp] theorem Layout.plain_gap : Layout.plain.gap = [] := rfl

@[simp] theorem Layout.spread_line (level : Nat) : Layout.spread.line level = lineAt level := rfl

@[simp] theorem Layout.spread_gap : Layout.spread.gap = [' '] := rfl

mutual
theorem plain_chars (level : Nat) : ∀ v : Json, Layout.plain.chars level v = v.chars
  | null | bool _ | number _ | string _ | array [] | object [] => rfl
  | array (x :: xs) => by
    simp [Layout.chars, chars, plain_items (level + 1) x xs, plain_chars (level + 1) x]
  | object ((k, x) :: ms) => by
    simp [Layout.chars, chars, plain_members (level + 1) k x ms, plain_chars (level + 1) x]

theorem plain_items (level : Nat) (x : Json) : ∀ xs : List Json,
    charsItems (x :: xs) = x.chars ++ Layout.plain.moreItems level xs
  | [] => (List.append_nil _).symm
  | y :: ys => by
    rw [charsItems, plain_items level y ys, Layout.moreItems, plain_chars level y]
    · rfl
    · exact List.cons_ne_nil _ _

theorem plain_members (level : Nat) (k : String) (x : Json) : ∀ ms : List (String × Json),
    charsMembers ((k, x) :: ms) = quoted k ++ ':' :: (x.chars ++ Layout.plain.moreMembers level ms)
  | [] => by rw [Layout.moreMembers, List.append_nil, charsMembers]
  | (l, y) :: ms => by
    rw [charsMembers, plain_members level l y ms, Layout.moreMembers, plain_chars level y]
    · simp
    · exact List.cons_ne_nil _ _
end

mutual
theorem spread_chars (level : Nat) : ∀ v : Json, Layout.spread.chars level v = indentedChars level v
  | null | bool _ | number _ | string _ | array [] | object [] => rfl
  | array (x :: xs) => by
    simp [Layout.chars, indentedChars, spread_items (level + 1) x xs, spread_chars (level + 1) x]
  | object ((k, x) :: ms) => by
    simp [Layout.chars, indentedChars, spread_members (level + 1) k x ms, spread_chars (level + 1) x]

theorem spread_items (level : Nat) (x : Json) : ∀ xs : List Json,
    indentedItems level (x :: xs) = lineAt level ++ (indentedChars level x ++ Layout.spread.moreItems level xs)
  | [] => by rw [Layout.moreItems, List.append_nil, indentedItems]
  | y :: ys => by
    rw [indentedItems, spread_items level y ys, Layout.moreItems, spread_chars level y]
    · simp
    · exact List.cons_ne_nil _ _

theorem spread_members (level : Nat) (k : String) (x : Json) : ∀ ms : List (String × Json),
    indentedMembers level ((k, x) :: ms) = lineAt level ++ (quoted k ++ ':' :: ' ' ::
      (indentedChars level x ++ Layout.spread.moreMembers level ms))
  | [] => by rw [Layout.moreMembers, List.append_nil, indentedMembers, List.append_assoc]
  | (l, y) :: ms => by
    rw [indentedMembers, spread_members level l y ms, Layout.moreMembers, spread_chars level y]
    · simp
    · exact List.cons_ne_nil _ _
end

section Containers
variable {rest cs blanks text : List Char} {c : Cursor} {depth fuel : Nat} {v : Json}

theorem skipBlanks_twice (c : Cursor) : c.skipBlanks.skipBlanks = c.skipBlanks := by
  obtain ⟨cs, p⟩ := c
  unfold Cursor.skipBlanks
  dsimp only
  induction cs generalizing p with
  | nil => rfl
  | cons x cs ih =>
    rw [Cursor.skipBlanks.go]
    by_cases blank : Cursor.isBlank x = true
    · rw [if_pos blank]
      exact ih _
    · rw [if_neg blank, Cursor.skipBlanks.go, if_neg blank]

/-- Blanks in front of a value are passed over. -/
theorem value_skipBlanks (depth : Nat) (c : Cursor) : value depth c.skipBlanks = value depth c := by
  unfold value
  rw [skipBlanks_twice]

theorem Takes.after_blanks (h : Takes (value depth) text v rest)
    (blank : ∀ c ∈ blanks, Cursor.isBlank c = true) : Takes (value depth) (blanks ++ text) v rest := by
  intro p
  obtain ⟨q, passed⟩ := skipBlanks_blanks blank (text ++ rest) p
  rw [List.append_assoc, ← value_skipBlanks, passed, value_skipBlanks]
  exact h q

/-- What closes a container is no value. -/
theorem peek?_of_value {r : Json × Cursor} (read : value depth c = .ok r) :
    ∃ x, c.skipBlanks.peek? = some x ∧ x ≠ ']' ∧ x ≠ '\x7d' := by
  have failing : ∀ (c : Cursor) (fault : ReadFault), c.failAhead fault ≠ .ok r := by
    intro c fault
    unfold Cursor.failAhead
    split <;> nofun
  cases ahead : c.skipBlanks.peek? with
  | none =>
    unfold value at read
    dsimp only at read
    rw [ahead] at read
    cases read
  | some x =>
    refine ⟨x, rfl, ?_, ?_⟩
    · rintro rfl
      unfold value at read
      dsimp only at read
      rw [ahead] at read
      exact failing _ _ read
    · rintro rfl
      unfold value at read
      dsimp only at read
      rw [ahead] at read
      exact failing _ _ read

theorem takes_word (v : Json) (cs rest : List Char) : Takes (word v cs) cs v rest := by
  induction cs with
  | nil => exact fun p => ⟨p, rfl⟩
  | cons x cs ih =>
    intro p
    obtain ⟨q, read⟩ := ih (p.pass x x.utf8Size)
    refine ⟨q, ?_⟩
    rw [List.cons_append, word]
    have first : (Cursor.mk (x :: (cs ++ rest)) p).peek? = some x := rfl
    rw [first]
    dsimp only
    rw [if_pos rfl]
    exact read

section Items
variable {item : Cursor → Except ReadError (Json × Cursor)}

theorem items_close {acc : List Json} {q : Position} (ahead : c.skipBlanks = ⟨']' :: rest, q⟩) :
    items item (fuel + 1) c acc = .ok (.array acc.reverse, ⟨rest, q.pass ']' 1⟩) := by
  unfold items
  dsimp only
  rw [ahead]
  rfl

theorem items_first {x : Char} (ahead : c.skipBlanks.peek? = some x) (opens : x ≠ ']') :
    items item (fuel + 1) c [] = (do
      let (v, c) ← item c.skipBlanks
      items item fuel c [v]) := by
  rw [items]
  dsimp only
  rw [ahead]
  split
  · rename_i none
    cases none
  · rename_i same
    exact absurd (Option.some.inj same) opens
  · rfl

theorem items_next {acc : List Json} {q : Position} {x : Char} (some : acc ≠ [])
    (comma : c.skipBlanks = ⟨',' :: cs, q⟩)
    (ahead : (Cursor.skipBlanks ⟨cs, q.pass ',' 1⟩).peek? = Option.some x) (opens : x ≠ ']') :
    items item (fuel + 1) c acc = (do
      let (v, c) ← item (Cursor.skipBlanks ⟨cs, q.pass ',' 1⟩)
      items item fuel c (v :: acc)) := by
  obtain ⟨y, ys, rfl⟩ := List.exists_cons_of_ne_nil some
  rw [items]
  dsimp only
  rw [comma]
  have further : (Cursor.mk (',' :: cs) q).advance = ⟨cs, q.pass ',' 1⟩ := rfl
  have first : (Cursor.mk (',' :: cs) q).peek? = Option.some ',' := rfl
  rw [first, further, ahead]
  simp only [List.isEmpty_cons, Bool.false_eq_true, if_false]
  rfl

/-- A member, read from its key on, and those behind it. -/
def member (item : Cursor → Except ReadError (Json × Cursor)) (fuel : Nat) (c : Cursor)
    (acc : List (String × Json)) : Except ReadError (Json × Cursor) := do
  let (key, c) ← Reader.string c.advance
  let c := c.skipBlanks
  match c.peek? with
  | none => c.fail .endInObject
  | some ':' =>
    let (v, c) ← item c.advance
    members item fuel c false (Entries.insert key v acc)
  | some _ => c.failAhead .expectedColon

variable {acc : List (String × Json)} {q : Position}

theorem members_close (first : Bool) (ahead : c.skipBlanks = ⟨'\x7d' :: rest, q⟩) :
    members item (fuel + 1) c first acc = .ok (.object acc, ⟨rest, q.pass '\x7d' 1⟩) := by
  unfold members
  dsimp only
  rw [ahead]
  rfl

theorem members_first (ahead : c.skipBlanks = ⟨'"' :: cs, q⟩) :
    members item (fuel + 1) c true acc = member item fuel ⟨'"' :: cs, q⟩ acc := by
  rw [members]
  dsimp only
  rw [ahead]
  rfl

theorem members_next {r : Position} {more : List Char} (comma : c.skipBlanks = ⟨',' :: cs, q⟩)
    (ahead : Cursor.skipBlanks ⟨cs, q.pass ',' 1⟩ = ⟨'"' :: more, r⟩) :
    members item (fuel + 1) c false acc = member item fuel ⟨'"' :: more, r⟩ acc := by
  rw [members]
  dsimp only
  rw [comma]
  have further : (Cursor.mk (',' :: cs) q).advance = ⟨cs, q.pass ',' 1⟩ := rfl
  have first : (Cursor.mk (',' :: cs) q).peek? = some ',' := rfl
  rw [first, further, ahead]
  rfl

end Items

section Stops
variable {x : Char}

theorem stops_cons (plain : x.isDigit = false ∧ x ≠ '.' ∧ x ≠ 'e' ∧ x ≠ 'E') (cs : List Char) :
    Stops (x :: cs) := by
  rintro y ⟨⟩
  exact plain

theorem stops_line (l : Layout) (level : Nat) (stops : Stops cs) : Stops (l.line level ++ cs) := by
  cases line : l.line level with
  | nil => exact stops
  | cons b blanks =>
    have blank := l.blank_line level b (line ▸ List.mem_cons_self)
    simp only [Cursor.isBlank, Bool.or_eq_true, decide_eq_true_eq] at blank
    refine stops_cons ?_ _
    rcases blank with ((rfl | rfl) | rfl) | rfl <;> decide

end Stops

section Parts
variable {l : Layout} {level outer : Nat} {xs : List Json}

theorem stops_moreItems (stops : Stops cs) (xs : List Json) : Stops (l.moreItems level xs ++ cs) := by
  cases xs with
  | nil => exact stops
  | cons x xs => exact stops_cons (by decide) _

theorem length_moreItems (l : Layout) (level : Nat) (xs : List Json) :
    xs.length ≤ (l.moreItems level xs).length := by
  induction xs with
  | nil => exact Nat.le_refl 0
  | cons x xs ih =>
    simp only [Layout.moreItems, List.length_cons, List.length_append]
    omega

theorem takes_moreItems (each : ∀ x ∈ xs, ∀ rest, Stops rest → Takes (value depth) (l.chars level x) x rest)
    {acc : List Json} (some : acc ≠ []) (enough : xs.length < fuel) (rest : List Char) :
    Takes (fun c => items (value depth) fuel c acc) (l.moreItems level xs ++ l.line outer ++ [']'])
      (array (acc.reverse ++ xs)) rest := by
  induction xs generalizing acc fuel with
  | nil =>
    intro p
    obtain ⟨fuel, rfl⟩ := Nat.exists_eq_succ_of_ne_zero (Nat.ne_of_gt enough)
    have closes : ∀ c ∈ (']' :: rest).head?, Cursor.isBlank c = false := by
      rintro x ⟨⟩
      decide
    obtain ⟨q, passed⟩ := skipBlanks_append (l.blank_line outer) closes p
    refine ⟨q.pass ']' 1, ?_⟩
    rw [List.append_nil]
    refine items_close (Eq.trans ?_ passed)
    rw [Layout.moreItems, List.nil_append, List.append_assoc, List.singleton_append]
  | cons x xs ih =>
    intro p
    obtain ⟨fuel, rfl⟩ := Nat.exists_eq_succ_of_ne_zero (Nat.ne_of_gt (Nat.zero_lt_of_lt enough))
    have stops : Stops (l.moreItems level xs ++ l.line outer ++ [']'] ++ rest) := by
      rw [List.append_assoc, List.append_assoc]
      exact stops_moreItems (stops_line l outer (stops_cons (by decide) _)) xs
    obtain ⟨q, read⟩ := ((each x List.mem_cons_self _ stops).after_blanks (l.blank_line level)) (p.pass ',' 1)
    obtain ⟨y, ahead, opens, _⟩ := peek?_of_value read
    obtain ⟨r, others⟩ := ih (fun x member => each x (List.mem_cons_of_mem _ member))
      (List.cons_ne_nil x acc) (Nat.lt_of_succ_lt_succ enough) q
    refine ⟨r, ?_⟩
    have text : l.moreItems level (x :: xs) ++ l.line outer ++ [']'] ++ rest = ',' :: (l.line level ++
        l.chars level x ++ (l.moreItems level xs ++ l.line outer ++ [']'] ++ rest)) := by
      simp [Layout.moreItems]
    dsimp only
    rw [text, items_next some (skipBlanks_cons (by decide) _ p) ahead opens, value_skipBlanks, read]
    have whole : array (acc.reverse ++ x :: xs) = array ((x :: acc).reverse ++ xs) := by simp
    rw [whole]
    exact others

theorem stops_moreMembers (stops : Stops cs) (ms : List (String × Json)) :
    Stops (l.moreMembers level ms ++ cs) := by
  cases ms with
  | nil => exact stops
  | cons m ms => exact stops_cons (by decide) _

theorem length_moreMembers (l : Layout) (level : Nat) (ms : List (String × Json)) :
    ms.length ≤ (l.moreMembers level ms).length := by
  induction ms with
  | nil => exact Nat.le_refl 0
  | cons m ms ih =>
    simp only [Layout.moreMembers, List.length_cons, List.length_append]
    omega

theorem quoted_plain (key : String) (more : List Char) :
    ∀ c ∈ (quoted key ++ more).head?, Cursor.isBlank c = false := by
  rintro c ⟨⟩
  decide

/-- A member whose value reads back is added to those before it. -/
theorem member_eq {x : Json} (acc : List (String × Json)) (fuel : Nat)
    (one : Takes (value depth) text x rest) (l : Layout) (key : String) (p : Position) :
    ∃ q, member (value depth) fuel ⟨quoted key ++ ':' :: (l.gap ++ text ++ rest), p⟩ acc =
      members (value depth) fuel ⟨rest, q⟩ false (Entries.insert key x acc) := by
  have start : (Cursor.mk (quoted key ++ ':' :: (l.gap ++ text ++ rest)) p).advance =
      ⟨key.toList.flatMap escapeChar ++ ['"'] ++ ':' :: (l.gap ++ text ++ rest), p.pass '"' 1⟩ := rfl
  obtain ⟨q, named⟩ := takes_string key (':' :: (l.gap ++ text ++ rest)) (p.pass '"' 1)
  obtain ⟨r, read⟩ := one.after_blanks l.blank_gap (q.pass ':' 1)
  refine ⟨r, ?_⟩
  have colon : Cursor.skipBlanks ⟨':' :: (l.gap ++ text ++ rest), q⟩ = ⟨':' :: (l.gap ++ text ++ rest), q⟩ :=
    skipBlanks_cons (by decide) _ q
  have further : (Cursor.mk (':' :: (l.gap ++ text ++ rest)) q).advance =
      ⟨l.gap ++ text ++ rest, q.pass ':' 1⟩ := rfl
  have first : (Cursor.mk (':' :: (l.gap ++ text ++ rest)) q).peek? = some ':' := rfl
  rw [member, start, named]
  simp only [bind, Except.bind, colon, first, further, read]

theorem takes_moreMembers {ms : List (String × Json)} (acc : List (String × Json))
    (each : ∀ m ∈ ms, ∀ rest, Stops rest → Takes (value depth) (l.chars level m.2) m.2 rest)
    (distinct : (Entries.keys (acc ++ ms)).Nodup) (enough : ms.length < fuel) (rest : List Char) :
    Takes (fun c => members (value depth) fuel c false acc)
      (l.moreMembers level ms ++ l.line outer ++ ['\x7d']) (object (acc ++ ms)) rest := by
  induction ms generalizing acc fuel with
  | nil =>
    intro p
    obtain ⟨fuel, rfl⟩ := Nat.exists_eq_succ_of_ne_zero (Nat.ne_of_gt enough)
    have closes : ∀ c ∈ ('\x7d' :: rest).head?, Cursor.isBlank c = false := by
      rintro x ⟨⟩
      decide
    obtain ⟨q, passed⟩ := skipBlanks_append (l.blank_line outer) closes p
    refine ⟨q.pass '\x7d' 1, ?_⟩
    rw [List.append_nil]
    refine members_close false (Eq.trans ?_ passed)
    rw [Layout.moreMembers, List.nil_append, List.append_assoc, List.singleton_append]
  | cons m ms ih =>
    intro p
    obtain ⟨key, x⟩ := m
    obtain ⟨fuel, rfl⟩ := Nat.exists_eq_succ_of_ne_zero (Nat.ne_of_gt (Nat.zero_lt_of_lt enough))
    have stops : Stops (l.moreMembers level ms ++ l.line outer ++ ['\x7d'] ++ rest) := by
      rw [List.append_assoc, List.append_assoc]
      exact stops_moreMembers (stops_line l outer (stops_cons (by decide) _)) ms
    have whole : acc ++ (key, x) :: ms = acc ++ [(key, x)] ++ ms := by simp
    have fresh : key ∉ Entries.keys acc := by
      intro given
      rw [Entries.keys, List.map_append] at distinct
      exact (List.nodup_append.mp distinct).2.2 key given key List.mem_cons_self rfl
    rw [whole] at distinct ⊢
    have text : l.moreMembers level ((key, x) :: ms) ++ l.line outer ++ ['\x7d'] ++ rest =
        ',' :: (l.line level ++ (quoted key ++ ':' :: (l.gap ++ l.chars level x ++
          (l.moreMembers level ms ++ l.line outer ++ ['\x7d'] ++ rest)))) := by
      simp [Layout.moreMembers]
    obtain ⟨q, passed⟩ := skipBlanks_append (l.blank_line level) (quoted_plain key _) (p.pass ',' 1)
    obtain ⟨r, one⟩ := member_eq acc fuel (each _ List.mem_cons_self _ stops) l key q
    obtain ⟨z, others⟩ := ih _ (fun m member => each m (List.mem_cons_of_mem _ member)) distinct
      (Nat.lt_of_succ_lt_succ enough) r
    refine ⟨z, ?_⟩
    dsimp only
    rw [text, members_next (skipBlanks_cons (by decide) _ p) passed]
    refine one.trans ?_
    rw [Entries.insert_fresh fresh]
    exact others

/-- A container is read from what opens it, with a limit that every text in it keeps to. -/
theorem takes_array (each : ∀ x ∈ xs, ∀ level rest, Stops rest → Takes (value depth) (l.chars level x) x rest)
    (level : Nat) (rest : List Char) :
    Takes (value (depth + 1)) (l.chars level (array xs)) (array xs) rest := by
  have start : ∀ cs p, value (depth + 1) ⟨'[' :: cs, p⟩ =
      items (value depth) (cs.length + 1 + 1) ⟨cs, p.pass '[' 1⟩ [] := by
    intro cs p
    rw [value]
    dsimp only
    rw [skipBlanks_cons (by decide)]
    rfl
  cases xs with
  | nil =>
    intro p
    have text : l.chars level (array []) ++ rest = '[' :: ']' :: rest := rfl
    rw [text, start]
    exact ⟨_, items_close (skipBlanks_cons (by decide) rest _)⟩
  | cons x xs =>
    intro p
    have text : l.chars level (array (x :: xs)) ++ rest = '[' :: (l.line (level + 1) ++
        l.chars (level + 1) x ++ (l.moreItems (level + 1) xs ++ l.line level ++ [']'] ++ rest)) := by
      simp [Layout.chars]
    have stops : Stops (l.moreItems (level + 1) xs ++ l.line level ++ [']'] ++ rest) := by
      rw [List.append_assoc, List.append_assoc]
      exact stops_moreItems (stops_line l level (stops_cons (by decide) _)) xs
    obtain ⟨q, read⟩ := ((each x List.mem_cons_self _ _ stops).after_blanks (l.blank_line (level + 1)))
      (p.pass '[' 1)
    obtain ⟨y, ahead, opens, _⟩ := peek?_of_value read
    have enough : xs.length < (l.line (level + 1) ++ l.chars (level + 1) x ++
        (l.moreItems (level + 1) xs ++ l.line level ++ [']'] ++ rest)).length + 1 := by
      have longer := length_moreItems l (level + 1) xs
      simp only [List.length_append]
      omega
    obtain ⟨r, others⟩ := takes_moreItems (fun x member => each x (List.mem_cons_of_mem _ member) (level + 1))
      (List.cons_ne_nil x []) enough rest q
    refine ⟨r, ?_⟩
    rw [text, start, items_first ahead opens, value_skipBlanks, read]
    exact others

theorem takes_object {ms : List (String × Json)} (distinct : (Entries.keys ms).Nodup)
    (each : ∀ m ∈ ms, ∀ level rest, Stops rest → Takes (value depth) (l.chars level m.2) m.2 rest)
    (level : Nat) (rest : List Char) :
    Takes (value (depth + 1)) (l.chars level (object ms)) (object ms) rest := by
  have start : ∀ cs p, value (depth + 1) ⟨'\x7b' :: cs, p⟩ =
      members (value depth) (cs.length + 1 + 1) ⟨cs, p.pass '\x7b' 1⟩ true [] := by
    intro cs p
    rw [value]
    dsimp only
    rw [skipBlanks_cons (by decide)]
    rfl
  cases ms with
  | nil =>
    intro p
    have text : l.chars level (object []) ++ rest = '\x7b' :: '\x7d' :: rest := rfl
    rw [text, start]
    exact ⟨_, members_close true (skipBlanks_cons (by decide) rest _)⟩
  | cons m ms =>
    obtain ⟨key, x⟩ := m
    intro p
    have text : l.chars level (object ((key, x) :: ms)) ++ rest = '\x7b' :: (l.line (level + 1) ++
        (quoted key ++ ':' :: (l.gap ++ l.chars (level + 1) x ++
          (l.moreMembers (level + 1) ms ++ l.line level ++ ['\x7d'] ++ rest)))) := by
      simp [Layout.chars]
    have stops : Stops (l.moreMembers (level + 1) ms ++ l.line level ++ ['\x7d'] ++ rest) := by
      rw [List.append_assoc, List.append_assoc]
      exact stops_moreMembers (stops_line l level (stops_cons (by decide) _)) ms
    obtain ⟨q, passed⟩ := skipBlanks_append (l.blank_line (level + 1)) (quoted_plain key _) (p.pass '\x7b' 1)
    obtain ⟨r, one⟩ := member_eq [] _ (each _ List.mem_cons_self _ _ stops) l key q
    have enough : ms.length < (l.line (level + 1) ++ (quoted key ++ ':' :: (l.gap ++ l.chars (level + 1) x ++
        (l.moreMembers (level + 1) ms ++ l.line level ++ ['\x7d'] ++ rest)))).length + 1 := by
      have longer := length_moreMembers l (level + 1) ms
      simp only [List.length_append, List.length_cons]
      omega
    obtain ⟨z, others⟩ := takes_moreMembers [(key, x)]
      (fun m member => each m (List.mem_cons_of_mem _ member) (level + 1)) distinct enough rest r
    refine ⟨z, ?_⟩
    rw [text, start, members_first passed]
    exact one.trans others

end Parts
end Containers

theorem legibleItems_iff {depth : Nat} {xs : List Json} :
    LegibleItems depth xs ↔ ∀ x ∈ xs, x.Legible depth := by
  induction xs with
  | nil => simp [LegibleItems]
  | cons x rest ih => simp [LegibleItems, ih]

theorem legibleMembers_iff {depth : Nat} {ms : List (String × Json)} :
    LegibleMembers depth ms ↔ ∀ m ∈ ms, m.2.Legible depth := by
  induction ms with
  | nil => simp [LegibleMembers]
  | cons m rest ih => simp [LegibleMembers, ih]

section Printed
variable {depth : Nat} {rest : List Char} {v : Json}

theorem takes_number {n : Number} (legible : n.Legible) (stops : Stops rest) (depth : Nat) :
    Takes (value depth) n.render.toList (number n) rest := by
  cases n with
  | int i => exact takes_int legible.1 legible.2 stops depth
  | float x =>
    obtain ⟨q, read⟩ := legible
    intro p
    have behind : Behind rest (.start (Number.float x).render.toList)
        ⟨(Number.float x).render.toList ++ rest, p⟩ := rfl
    obtain ⟨⟨_, r⟩, found, rfl⟩ := value_number stops behind read depth
    exact ⟨r, found⟩

theorem takes_plain (plain : ∀ xs, v ≠ array xs) (single : ∀ ms, v ≠ object ms)
    (legible : v.Legible depth) (stops : Stops rest) : Takes (value depth) v.chars v rest := by
  cases v with
  | array xs => exact absurd rfl (plain xs)
  | object ms => exact absurd rfl (single ms)
  | number n => exact takes_number (by unfold Legible at legible; exact legible) stops depth
  | null =>
    intro p
    obtain ⟨q, read⟩ := takes_word null ['u', 'l', 'l'] rest (p.pass 'n' 1)
    exact ⟨q, by unfold value; exact read⟩
  | bool b =>
    intro p
    cases b with
    | true =>
      obtain ⟨q, read⟩ := takes_word (bool true) ['r', 'u', 'e'] rest (p.pass 't' 1)
      exact ⟨q, by unfold value; exact read⟩
    | false =>
      obtain ⟨q, read⟩ := takes_word (bool false) ['a', 'l', 's', 'e'] rest (p.pass 'f' 1)
      exact ⟨q, by unfold value; exact read⟩
  | string s =>
    intro p
    obtain ⟨q, read⟩ := takes_string s rest (p.pass '"' 1)
    have start : value depth ⟨quoted s ++ rest, p⟩ = (do
        let (s, c) ← Reader.string ⟨s.toList.flatMap escapeChar ++ ['"'] ++ rest, p.pass '"' 1⟩
        .ok (.string s, c)) := by
      unfold value
      rfl
    exact ⟨q, by rw [chars, start, read]; rfl⟩

theorem chars_plain (l : Layout) (level : Nat) (plain : ∀ xs, v ≠ array xs) (single : ∀ ms, v ≠ object ms) :
    l.chars level v = v.chars := by
  cases v with
  | array xs => exact absurd rfl (plain xs)
  | object ms => exact absurd rfl (single ms)
  | null | bool _ | number _ | string _ => rfl

/-- A legible value is read from its text in any layout. By induction on the depth, which a container takes
one from. -/
theorem takes_chars (l : Layout) (level : Nat) (unique : v.KeysUnique) (legible : v.Legible depth)
    (stops : Stops rest) : Takes (value depth) (l.chars level v) v rest := by
  induction depth generalizing v level rest with
  | zero =>
    have plain : ∀ xs, v ≠ array xs := by
      rintro xs rfl
      exact absurd legible.1 (Nat.lt_irrefl 0)
    have single : ∀ ms, v ≠ object ms := by
      rintro ms rfl
      exact absurd legible.1 (Nat.lt_irrefl 0)
    rw [chars_plain l level plain single]
    exact takes_plain plain single legible stops
  | succ depth ih =>
    by_cases plain : ∀ xs, v ≠ array xs
    · by_cases single : ∀ ms, v ≠ object ms
      · rw [chars_plain l level plain single]
        exact takes_plain plain single legible stops
      · push Not at single
        obtain ⟨ms, rfl⟩ := single
        have uniques := keysUniqueMembers_iff.mp unique.2
        have legibles := legibleMembers_iff.mp legible.2
        exact takes_object unique.1 (fun m member level rest => ih level (uniques m member) (legibles m member))
          level rest
    · push Not at plain
      obtain ⟨xs, rfl⟩ := plain
      have uniques := keysUniqueItems_iff.mp unique
      have legibles := legibleItems_iff.mp legible.2
      exact takes_array (fun x member level rest => ih level (uniques x member) (legibles x member)) level rest

/-- What is printed on lines of their own, or on one line, is read back as it was. -/
theorem read_layout (l : Layout) (unique : v.KeysUnique) (legible : v.Legible maxDepth) :
    read (String.ofList (l.chars 0 v) ++ "\n") = .ok v := by
  have stops : Stops ['\n'] := stops_cons (by decide) []
  obtain ⟨q, found⟩ := takes_chars l 0 unique legible stops ⟨1, 0⟩
  have text : (String.ofList (l.chars 0 v) ++ "\n").toList = l.chars 0 v ++ ['\n'] := by
    rw [String.toList_append, String.toList_ofList]
    rfl
  have start : value maxDepth (.start (String.ofList (l.chars 0 v) ++ "\n").toList) = .ok (v, ⟨['\n'], q⟩) := by
    rw [text]
    exact found
  rw [read, start]
  rfl

theorem read_compact (unique : v.KeysUnique) (legible : v.Legible maxDepth) :
    read (v.compact ++ "\n") = .ok v := by
  rw [compact, ← plain_chars 0 v]
  exact read_layout Layout.plain unique legible

theorem read_indented (unique : v.KeysUnique) (legible : v.Legible maxDepth) :
    read (v.indented ++ "\n") = .ok v := by
  rw [indented, ← spread_chars 0 v]
  exact read_layout Layout.spread unique legible

end Printed

end Json
end ApiPayload
