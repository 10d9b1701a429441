import ApiPayload.Json.Reader
import ApiPayload.Json.Writer
import ApiPayload.Proofs.Paths

/-
Strings and numbers in a text. What is written for one is taken off the text in front of whatever follows, as
long as no number goes on there.
-/
namespace ApiPayload.Json

open Reader

/-- A reader that takes a text off what is ahead, wherever that is, and gives a value for it. -/
def Takes {γ : Type} (reader : Cursor → Except ReadError (γ × Cursor)) (text : List Char) (a : γ)
    (rest : List Char) : Prop :=
  ∀ p, ∃ q, reader ⟨text ++ rest, p⟩ = .ok (a, ⟨rest, q⟩)

/-- No number goes on with this. -/
def Stops (rest : List Char) : Prop :=
  ∀ c ∈ rest.head?, c.isDigit = false ∧ c ≠ '.' ∧ c ≠ 'e' ∧ c ≠ 'E'

section Blanks
variable {blanks rest : List Char}

theorem skipBlanks_blanks (blank : ∀ c ∈ blanks, Cursor.isBlank c = true) (rest : List Char)
    (p : Position) : ∃ q, Cursor.skipBlanks ⟨blanks ++ rest, p⟩ = Cursor.skipBlanks ⟨rest, q⟩ := by
  unfold Cursor.skipBlanks
  dsimp only
  induction blanks generalizing p with
  | nil => exact ⟨p, rfl⟩
  | cons b blanks ih =>
    rw [List.cons_append, Cursor.skipBlanks.go, blank b List.mem_cons_self, if_pos rfl]
    exact ih (fun c member => blank c (List.mem_cons_of_mem b member)) _

theorem skipBlanks_cons {c : Char} (plain : Cursor.isBlank c = false) (rest : List Char) (p : Position) :
    Cursor.skipBlanks ⟨c :: rest, p⟩ = ⟨c :: rest, p⟩ := by
  rw [Cursor.skipBlanks, Cursor.skipBlanks.go, plain]
  rfl

theorem skipBlanks_append (blank : ∀ c ∈ blanks, Cursor.isBlank c = true)
    (plain : ∀ c ∈ rest.head?, Cursor.isBlank c = false) (p : Position) :
    ∃ q, Cursor.skipBlanks ⟨blanks ++ rest, p⟩ = ⟨rest, q⟩ := by
  obtain ⟨q, passed⟩ := skipBlanks_blanks blank rest p
  refine ⟨q, passed.trans ?_⟩
  cases rest with
  | nil => rfl
  | cons c rest => exact skipBlanks_cons (plain c rfl) rest q

end Blanks

section Strings
variable {cs rest : List Char} {c : Char}

theorem hexNumber?_control : ∀ n < 32,
    Text.hexNumber? ['0', '0', hexDigit (n / 16), hexDigit (n % 16)] = some n := by
  decide

theorem le_byteCount (cs : List Char) : cs.length ≤ Cursor.byteCount cs := by
  have from_count : ∀ n, n + cs.length ≤ cs.foldl (fun n c => n + c.utf8Size) n := by
    induction cs with
    | nil => exact fun n => Nat.le_refl n
    | cons c rest ih =>
      intro n
      have size := c.utf8Size_pos
      have later := ih (n + c.utf8Size)
      rw [List.foldl_cons, List.length_cons]
      omega
  have whole := from_count 0
  rwa [Nat.zero_add] at whole

/-- A control character as one unit. -/
theorem takes_unicodeEscape (control : c.toNat < 32) (rest : List Char) :
    Takes unicodeEscape ['0', '0', hexDigit (c.toNat / 16), hexDigit (c.toNat % 16)] c rest := by
  intro p
  have enough := le_byteCount ('0' :: '0' :: hexDigit (c.toNat / 16) :: hexDigit (c.toNat % 16) :: rest)
  simp only [List.length_cons] at enough
  have long : ¬ Cursor.byteCount ('0' :: '0' :: hexDigit (c.toNat / 16) :: hexDigit (c.toNat % 16) ::
      rest) < 4 := by omega
  obtain ⟨q, ahead⟩ : ∃ q, (Cursor.mk ('0' :: '0' :: hexDigit (c.toNat / 16) :: hexDigit (c.toNat % 16) ::
      rest) p).advance.advance.advance.advance = ⟨rest, q⟩ := ⟨_, rfl⟩
  have digits : hex4 ⟨'0' :: '0' :: hexDigit (c.toNat / 16) :: hexDigit (c.toNat % 16) :: rest, p⟩ =
      .ok (c.toNat, ⟨rest, q⟩) := by
    rw [hex4, if_neg long, ahead]
    simp only [List.take_succ_cons, List.take_zero, hexNumber?_control c.toNat control]
  refine ⟨q, ?_⟩
  have plain : ¬ (0xDC00 ≤ c.toNat ∧ c.toNat ≤ 0xDFFF) := by omega
  have single : c.toNat < 0xD800 ∨ 0xDBFF < c.toNat := by omega
  simp only [List.cons_append, List.nil_append, unicodeEscape, digits, bind, Except.bind, if_neg plain,
    if_pos single, Char.ofNat_toNat]

/-- An escaped character is read as itself. -/
theorem stringBody_escapeChar (fuel : Nat) (c : Char) (rest acc : List Char) (p : Position) :
    ∃ q, stringBody (fuel + 1) ⟨escapeChar c ++ rest, p⟩ acc = stringBody fuel ⟨rest, q⟩ (c :: acc) := by
  unfold escapeChar
  split
  · rename_i same
    subst same
    exact ⟨_, rfl⟩
  split
  · rename_i same
    subst same
    exact ⟨_, rfl⟩
  split
  · rename_i same
    subst same
    exact ⟨_, rfl⟩
  split
  · rename_i same
    subst same
    exact ⟨_, rfl⟩
  split
  · rename_i same
    subst same
    exact ⟨_, rfl⟩
  split
  · rename_i same
    obtain rfl : c = '\x08' := Char.ext same
    exact ⟨_, rfl⟩
  split
  · rename_i same
    obtain rfl : c = '\x0c' := Char.ext same
    exact ⟨_, rfl⟩
  split
  · rename_i control
    have control : c.toNat < 32 := control
    obtain ⟨q, read⟩ := takes_unicodeEscape control rest ((p.pass '\\' 1).pass 'u' 1)
    refine ⟨q, ?_⟩
    have escape : escaped ⟨'u' :: '0' :: '0' :: hexDigit (c.toNat / 16) :: hexDigit (c.toNat % 16) :: rest,
        p.pass '\\' 1⟩ = .ok (c, ⟨rest, q⟩) := read
    have first : Cursor.advance ⟨'\\' :: 'u' :: '0' :: '0' :: hexDigit (c.toNat / 16) ::
        hexDigit (c.toNat % 16) :: rest, p⟩ =
      ⟨'u' :: '0' :: '0' :: hexDigit (c.toNat / 16) :: hexDigit (c.toNat % 16) :: rest, p.pass '\\' 1⟩ := rfl
    have other : ¬ '\\' = '"' := by decide
    simp only [List.cons_append, List.nil_append, stringBody, Cursor.peek?, List.head?_cons, if_neg other,
      if_true, first, escape]
  · rename_i notQuote notSlash _ _ _ _ _ plain
    have above : ¬ c.toNat < 32 := plain
    refine ⟨p.pass c c.utf8Size, ?_⟩
    rw [List.singleton_append, stringBody]
    simp only [Cursor.peek?, List.head?_cons, if_neg notQuote, if_neg notSlash, if_neg above]
    rfl

theorem length_escaped (cs : List Char) : cs.length ≤ (cs.flatMap escapeChar).length := by
  have some : ∀ c, 1 ≤ (escapeChar c).length := by
    intro c
    unfold escapeChar
    repeat' split
    all_goals exact Nat.succ_le_of_lt (Nat.succ_pos _)
  induction cs with
  | nil => exact Nat.le_refl 0
  | cons c rest ih =>
    have one := some c
    rw [List.flatMap_cons, List.length_append, List.length_cons]
    omega

/-- What stands between quotes is read up to the closing one. -/
theorem takes_string (s : String) (rest : List Char) :
    Takes Reader.string (s.toList.flatMap escapeChar ++ ['"']) s rest := by
  have body : ∀ (cs acc : List Char) (fuel : Nat) (p : Position), cs.length < fuel →
      ∃ q, stringBody fuel ⟨cs.flatMap escapeChar ++ '"' :: rest, p⟩ acc =
        .ok (String.ofList (acc.reverse ++ cs), ⟨rest, q⟩) := by
    intro cs
    induction cs with
    | nil =>
      intro acc fuel p enough
      obtain ⟨fuel, rfl⟩ := Nat.exists_eq_succ_of_ne_zero (Nat.ne_of_gt enough)
      exact ⟨_, by rw [List.append_nil]; rfl⟩
    | cons c cs ih =>
      intro acc fuel p enough
      obtain ⟨fuel, rfl⟩ := Nat.exists_eq_succ_of_ne_zero (Nat.ne_of_gt (Nat.zero_lt_of_lt enough))
      rw [List.length_cons] at enough
      obtain ⟨q, one⟩ := stringBody_escapeChar fuel c (cs.flatMap escapeChar ++ '"' :: rest) acc p
      obtain ⟨r, others⟩ := ih (c :: acc) fuel q (Nat.lt_of_succ_lt_succ enough)
      refine ⟨r, ?_⟩
      rw [List.flatMap_cons, List.append_assoc, one, others, List.reverse_cons, List.append_assoc]
      rfl
  intro p
  have shorter := length_escaped s.toList
  obtain ⟨q, read⟩ := body s.toList [] _ p (Nat.lt_succ_of_le (Nat.le_trans shorter
    (Nat.le_trans (Nat.le_add_right _ ('"' :: rest).length) (Nat.le_of_eq List.length_append.symm))))
  refine ⟨q, ?_⟩
  rw [List.append_assoc, List.singleton_append, Reader.string]
  rw [List.reverse_nil, List.nil_append, String.ofList_toList] at read
  exact read

end Strings

section Numbers
variable {rest : List Char} {c c' : Cursor}

/-- The same place in two texts, one of which goes on. -/
def Behind (rest : List Char) (c c' : Cursor) : Prop := c'.rest = c.rest ++ rest

/-- What is read where the shorter text ends is read from the longer one. -/
def Carries (rest : List Char) (r r' : Except ReadError (Json × Cursor)) : Prop :=
  ∀ v c, r = .ok (v, c) → ∃ c', r' = .ok (v, c') ∧ Behind rest c c'

theorem carries_error (e : ReadError) (r' : Except ReadError (Json × Cursor)) : Carries rest (.error e) r' :=
  fun _ _ read => nomatch read

theorem carries_failAhead (c : Cursor) (fault : ReadFault) (r' : Except ReadError (Json × Cursor)) :
    Carries rest (c.failAhead fault) r' := by
  unfold Cursor.failAhead
  split <;> exact carries_error _ _

theorem carries_ok (v : Json) (h : Behind rest c c') : Carries rest (.ok (v, c)) (.ok (v, c')) := by
  intro w d read
  cases read
  exact ⟨c', rfl, h⟩

theorem carries_ofOption (n : Option Number) (h : Behind rest c c') :
    Carries rest (ofOption c n) (ofOption c' n) := by
  cases n with
  | none => exact carries_error _ _
  | some n => exact carries_ok _ h

theorem Behind.peek? (h : Behind rest c c') : c'.peek? = c.peek?.or rest.head? := by
  rw [Cursor.peek?, Cursor.peek?, h, List.head?_append]

theorem Behind.advance (h : Behind rest c c') (some : c.rest ≠ []) :
    Behind rest c.advance c'.advance := by
  obtain ⟨cs, p⟩ := c
  obtain ⟨cs', p'⟩ := c'
  obtain rfl : cs' = cs ++ rest := h
  cases cs with
  | nil => exact absurd rfl some
  | cons x cs => rfl

theorem Behind.digits (h : Behind rest c c') (stops : Stops rest) :
    c'.digits.1 = c.digits.1 ∧ Behind rest c.digits.2 c'.digits.2 := by
  obtain ⟨cs, p⟩ := c
  obtain ⟨cs', p'⟩ := c'
  obtain rfl : cs' = cs ++ rest := h
  unfold Cursor.digits
  dsimp only
  induction cs generalizing p p' with
  | nil =>
    cases rest with
    | nil => exact ⟨rfl, rfl⟩
    | cons x rest =>
      have plain := (stops x rfl).1
      simp only [List.nil_append, Cursor.digits.go, plain]
      exact ⟨rfl, rfl⟩
  | cons x cs ih =>
    rw [List.cons_append, Cursor.digits.go, Cursor.digits.go]
    split
    · obtain ⟨same, behind⟩ := ih (p.pass x 1) (p'.pass x 1)
      exact ⟨congrArg ((x.toNat - '0'.toNat) :: ·) same, behind⟩
    · exact ⟨rfl, rfl⟩

theorem Behind.exponentDigits (h : Behind rest c c') (stops : Stops rest) (acc : Nat) :
    (Reader.exponentDigits acc c' c'.rest).1 = (Reader.exponentDigits acc c c.rest).1 ∧
      Behind rest (Reader.exponentDigits acc c c.rest).2 (Reader.exponentDigits acc c' c'.rest).2 := by
  obtain ⟨cs, p⟩ := c
  obtain ⟨cs', p'⟩ := c'
  obtain rfl : cs' = cs ++ rest := h
  dsimp only
  induction cs generalizing acc p p' with
  | nil =>
    cases rest with
    | nil => exact ⟨rfl, rfl⟩
    | cons x rest =>
      have plain := (stops x rfl).1
      simp only [List.nil_append, Reader.exponentDigits, plain]
      exact ⟨rfl, rfl⟩
  | cons x cs ih =>
    rw [List.cons_append, Reader.exponentDigits, Reader.exponentDigits]
    split
    · dsimp only
      split
      · exact ih _ _ _
      · exact ⟨rfl, rfl⟩
    · exact ⟨rfl, rfl⟩

/-- A letter or point that no other number goes on with is seen from both or from neither. -/
theorem Behind.sees (h : Behind rest c c') {x : Char} (other : ∀ y ∈ rest.head?, y ≠ x) :
    c'.peek? = some x ↔ c.peek? = some x := by
  rw [h.peek?]
  cases c.peek? with
  | some y => rfl
  | none =>
    rw [Option.none_or]
    exact ⟨fun first => absurd rfl (other x first), nofun⟩

/-- The sign of an exponent, if there is one, and what comes after it. -/
def exponentSign (c : Cursor) : Bool × Cursor :=
  match c.peek? with
  | some '+' => (false, c.advance)
  | some '-' => (true, c.advance)
  | _ => (false, c)

def unsignedExponent (negative : Bool) (significand : Nat) (scale : Int) (down : Bool) (c : Cursor) :
    Except ReadError (Json × Cursor) :=
  match c.peek? with
  | none => c.fail .endInValue
  | some x =>
    if x.isDigit then
      match exponentDigits 0 c c.rest with
      | (some e, c) => ofOption c (floatOf negative significand (if down then scale - e else scale + e))
      | (none, c) =>
        if significand ≠ 0 ∧ ¬ down then c.fail .numberOutOfRange
        else .ok (.number (.float (signed negative 0.0)), c.digits.2)
    else c.failAhead .badNumber

theorem exponentPart_eq (negative : Bool) (significand : Nat) (scale : Int) (c : Cursor) :
    exponentPart negative significand scale c =
      unsignedExponent negative significand scale (exponentSign c).1 (exponentSign c).2 := rfl

theorem Behind.exponentSign (h : Behind rest c c') (some : c.rest ≠ []) :
    (Json.exponentSign c').1 = (Json.exponentSign c).1 ∧
      Behind rest (Json.exponentSign c).2 (Json.exponentSign c').2 := by
  have further := h.advance some
  obtain ⟨x, cs, ahead⟩ := List.exists_cons_of_ne_nil some
  have first : c.peek? = Option.some x := by rw [Cursor.peek?, ahead, List.head?_cons]
  rw [Json.exponentSign, Json.exponentSign, h.peek?, first, Option.some_or]
  split
  · exact ⟨rfl, further⟩
  · exact ⟨rfl, further⟩
  · exact ⟨rfl, h⟩

theorem carries_unsignedExponent (stops : Stops rest) (negative : Bool) (significand : Nat) (scale : Int)
    (down : Bool) (h : Behind rest c c') :
    Carries rest (unsignedExponent negative significand scale down c)
      (unsignedExponent negative significand scale down c') := by
  unfold unsignedExponent
  rw [h.peek?]
  cases c.peek? with
  | none => exact carries_error _ _
  | some x =>
    rw [Option.some_or]
    dsimp only
    split
    · obtain ⟨same, behind⟩ := h.exponentDigits stops 0
      generalize exponentDigits 0 c c.rest = r at same behind ⊢
      generalize exponentDigits 0 c' c'.rest = r' at same behind ⊢
      obtain ⟨e, d⟩ := r
      obtain ⟨e', d'⟩ := r'
      cases same
      cases e with
      | some e => exact carries_ofOption _ behind
      | none =>
        dsimp only
        split
        · exact carries_error _ _
        · exact carries_ok _ (behind.digits stops).2
    · exact carries_failAhead _ _ _

theorem carries_exponentPart (stops : Stops rest) (negative : Bool) (significand : Nat) (scale : Int)
    (h : Behind rest c c') :
    Carries rest (exponentPart negative significand scale c) (exponentPart negative significand scale c') := by
  rw [exponentPart_eq, exponentPart_eq]
  by_cases some : c.rest = []
  · have nothing : c.peek? = none := by rw [Cursor.peek?, some, List.head?_nil]
    rw [Json.exponentSign, unsignedExponent, nothing]
    dsimp only
    rw [nothing]
    exact carries_error _ _
  · obtain ⟨same, behind⟩ := h.exponentSign some
    rw [same]
    exact carries_unsignedExponent stops _ _ _ _ behind

def isExponent (c : Cursor) : Bool := c.peek? = some 'e' || c.peek? = some 'E'

/-- What comes behind the digits of a fraction. -/
def afterPoint (negative : Bool) (whole fraction : List Nat) (c : Cursor) :
    Except ReadError (Json × Cursor) :=
  let (m, e) := pointOf whole fraction
  if isExponent c then exponentPart negative m e c.advance else ofOption c (floatOf negative m e)

/-- What comes behind the digits before the point. -/
def afterWhole (negative : Bool) (whole : List Nat) (c : Cursor) : Except ReadError (Json × Cursor) :=
  if c.peek? = some '.' then
    match c.advance.digits with
    | ([], c) => if c.rest.isEmpty then c.fail .endInValue else c.failAhead .badNumber
    | (fraction, c) => afterPoint negative whole fraction c
  else if isExponent c then
    let (m, e) := pointOf whole []
    exponentPart negative m e c.advance
  else ofOption c (wholeOf negative whole)

theorem number_eq (negative : Bool) (c : Cursor) : Reader.number negative c = match c.digits with
    | ([], c) => if c.rest.isEmpty then c.fail .endInValue else c.failAhead .badNumber
    | (0 :: _ :: _, _) => c.advance.failAhead .badNumber
    | (whole, c) => afterWhole negative whole c := rfl

theorem rest_of_peek? {x : Char} (ahead : c.peek? = some x) : c.rest ≠ [] := by
  intro none
  rw [Cursor.peek?, none] at ahead
  cases ahead

theorem Behind.isExponent (h : Behind rest c c') (stops : Stops rest) :
    Json.isExponent c' = Json.isExponent c := by
  rw [Json.isExponent, Json.isExponent, decide_eq_decide.mpr (h.sees fun y first => (stops y first).2.2.1),
    decide_eq_decide.mpr (h.sees fun y first => (stops y first).2.2.2)]

theorem rest_of_isExponent (exponent : isExponent c = true) : c.rest ≠ [] := by
  rcases (Bool.or_eq_true _ _).mp exponent with ahead | ahead
  · exact rest_of_peek? (of_decide_eq_true ahead)
  · exact rest_of_peek? (of_decide_eq_true ahead)

theorem carries_afterPoint (stops : Stops rest) (negative : Bool) (whole fraction : List Nat)
    (h : Behind rest c c') :
    Carries rest (afterPoint negative whole fraction c) (afterPoint negative whole fraction c') := by
  unfold afterPoint
  rw [h.isExponent stops]
  dsimp only
  split
  · rename_i exponent
    exact carries_exponentPart stops _ _ _ (h.advance (rest_of_isExponent exponent))
  · exact carries_ofOption _ h

theorem carries_afterWhole (stops : Stops rest) (negative : Bool) (whole : List Nat) (h : Behind rest c c') :
    Carries rest (afterWhole negative whole c) (afterWhole negative whole c') := by
  unfold afterWhole
  rw [h.isExponent stops]
  simp only [h.sees fun y first => (stops y first).2.1]
  split
  · rename_i point
    obtain ⟨same, behind⟩ := (h.advance (rest_of_peek? point)).digits stops
    generalize c.advance.digits = r at same behind ⊢
    generalize c'.advance.digits = r' at same behind ⊢
    obtain ⟨fraction, d⟩ := r
    obtain ⟨fraction', d'⟩ := r'
    obtain rfl : fraction' = fraction := same
    cases fraction' with
    | nil =>
      dsimp only
      split
      · exact carries_error _ _
      · exact carries_failAhead _ _ _
    | cons x xs => exact carries_afterPoint stops _ _ _ behind
  · split
    · rename_i exponent
      exact carries_exponentPart stops _ _ _ (h.advance (rest_of_isExponent exponent))
    · exact carries_ofOption _ h

theorem carries_number (stops : Stops rest) (negative : Bool) (h : Behind rest c c') :
    Carries rest (Reader.number negative c) (Reader.number negative c') := by
  obtain ⟨same, behind⟩ := h.digits stops
  rw [number_eq, number_eq]
  generalize c.digits = r at same behind ⊢
  generalize c'.digits = r' at same behind ⊢
  obtain ⟨whole, d⟩ := r
  obtain ⟨whole', d'⟩ := r'
  obtain rfl : whole' = whole := same
  rcases whole' with _ | ⟨_ | x, _ | ⟨y, ys⟩⟩
  · dsimp only
    split
    · exact carries_error _ _
    · exact carries_failAhead _ _ _
  · exact carries_afterWhole stops _ _ behind
  · exact carries_failAhead _ _ _
  · exact carries_afterWhole stops _ _ behind
  · exact carries_afterWhole stops _ _ behind

theorem number_digits {negative : Bool} {whole : List Nat} {d : Cursor} (read : c.digits = (whole, d))
    (some : whole ≠ []) (plain : ∀ more, whole = 0 :: more → more = []) :
    Reader.number negative c = afterWhole negative whole d := by
  rw [number_eq, read]
  rcases whole with _ | ⟨_ | x, _ | ⟨y, ys⟩⟩
  · exact absurd rfl some
  · rfl
  · exact absurd (plain (y :: ys) rfl) (List.cons_ne_nil _ _)
  · rfl
  · rfl

/-- The values of the digits of a number. -/
def digitValues (n : Nat) : List Nat := (Nat.toDigits 10 n).map fun c => c.toNat - '0'.toNat

theorem digits_toDigits (n : Nat) (stops : Stops rest) (p : Position) :
    ∃ q, Cursor.digits ⟨Nat.toDigits 10 n ++ rest, p⟩ = (digitValues n, ⟨rest, q⟩) := by
  have all : ∀ c ∈ Nat.toDigits 10 n, c.isDigit = true := fun c member =>
    Nat.isDigit_of_mem_toDigits (by decide) (by decide) member
  unfold Cursor.digits digitValues
  dsimp only
  generalize Nat.toDigits 10 n = cs at all ⊢
  induction cs generalizing p with
  | nil =>
    cases rest with
    | nil => exact ⟨p, rfl⟩
    | cons x rest =>
      have plain := (stops x rfl).1
      simp only [List.nil_append, Cursor.digits.go, plain]
      exact ⟨p, rfl⟩
  | cons x cs ih =>
    obtain ⟨q, later⟩ := ih (p.pass x 1) fun c member => all c (List.mem_cons_of_mem x member)
    refine ⟨q, ?_⟩
    simp only [List.cons_append, Cursor.digits.go, all x List.mem_cons_self, if_true, later, List.map_cons]

/-- No number but zero starts with a zero. -/
theorem head_toDigits {n : Nat} (positive : 0 < n) : (Nat.toDigits 10 n).head? ≠ some '0' := by
  induction n using Nat.strongRecOn with
  | ind n ih =>
    by_cases small : n < 10
    · rw [Nat.toDigits_of_lt_base small, List.head?_cons]
      have digits : ∀ n < 10, 0 < n → n.digitChar ≠ '0' := by decide
      exact fun same => digits n small positive (Option.some.inj same)
    · have large : 10 ≤ n := Nat.le_of_not_lt small
      rw [Nat.toDigits_of_base_le (by decide) large, List.head?_append_of_ne_nil _ Nat.toDigits_ne_nil]
      exact ih (n / 10) (Nat.div_lt_self positive (by decide)) (Nat.div_pos large (by decide))

theorem digitValues_plain {n : Nat} {more : List Nat} (zero : digitValues n = 0 :: more) : more = [] := by
  rcases Nat.eq_zero_or_pos n with rfl | positive
  · exact (List.cons.inj zero).2.symm
  · obtain ⟨c, cs, digits, value, _⟩ := List.map_eq_cons_iff.mp zero
    have digit : c.isDigit = true := Nat.isDigit_of_mem_toDigits (by decide) (by decide)
      (digits ▸ List.mem_cons_self : c ∈ Nat.toDigits 10 n)
    have first := head_toDigits positive
    rw [digits, List.head?_cons] at first
    refine absurd (congrArg some (Char.ext (UInt32.toNat.inj ?_))) first
    have low := (Char.isDigit_iff_toNat.mp digit).1
    have zero : '0'.toNat = 48 := rfl
    show c.toNat = '0'.toNat
    omega

theorem accumulate_eq {acc : Nat} {ds : List Nat}
    (fits : ds.foldl (fun n d => n * 10 + d) acc < word64) :
    accumulate acc ds = (ds.foldl (fun n d => n * 10 + d) acc, []) := by
  have grows : ∀ (ds : List Nat) (acc : Nat), acc ≤ ds.foldl (fun n d => n * 10 + d) acc := by
    intro ds
    induction ds with
    | nil => exact fun acc => Nat.le_refl acc
    | cons d ds ih =>
      intro acc
      have later := ih (acc * 10 + d)
      rw [List.foldl_cons]
      omega
  induction ds generalizing acc with
  | nil => rfl
  | cons d ds ih =>
    rw [List.foldl_cons] at fits ⊢
    rw [accumulate, if_pos (Nat.lt_of_le_of_lt (grows ds _) fits), ih fits]

theorem accumulate_digitValues {n : Nat} (fits : n < word64) : accumulate 0 (digitValues n) = (n, []) := by
  have value : (digitValues n).foldl (fun n d => n * 10 + d) 0 = n := by
    rw [digitValues, List.foldl_map]
    simp only [Nat.mul_comm _ 10]
    exact Nat.ofDigitChars_toDigits (by decide) (by decide)
  rw [accumulate_eq (by rw [value]; exact fits), value]

theorem takes_whole {n : Nat} {m : Number} {negative : Bool} (stops : Stops rest)
    (whole : wholeOf negative (digitValues n) = some m) :
    Takes (Reader.number negative) (Nat.toDigits 10 n) (.number m) rest := by
  intro p
  obtain ⟨q, digits⟩ := digits_toDigits n stops p
  have some : digitValues n ≠ [] := fun none =>
    absurd (List.map_eq_nil_iff.mp none) Nat.toDigits_ne_nil
  have point : (Cursor.mk rest q).peek? ≠ Option.some '.' := fun first => (stops '.' first).2.1 rfl
  have exponent : isExponent (Cursor.mk rest q) = false := by
    cases seen : isExponent (Cursor.mk rest q) with
    | false => rfl
    | true =>
      rcases (Bool.or_eq_true _ _).mp seen with first | first
      · exact absurd rfl (stops 'e' (of_decide_eq_true first)).2.2.1
      · exact absurd rfl (stops 'E' (of_decide_eq_true first)).2.2.2
  refine ⟨q, ?_⟩
  rw [number_digits digits some fun _ => digitValues_plain, afterWhole, if_neg point, exponent, whole]
  rfl

theorem plain_of_digit {x : Char} (digit : x.isDigit = true) :
    Cursor.isBlank x = false ∧ x ≠ 'n' ∧ x ≠ 't' ∧ x ≠ 'f' ∧ x ≠ '-' ∧ x ≠ '"' ∧ x ≠ '[' ∧ x ≠ '\x7b' := by
  refine ⟨?_, ?_, ?_, ?_, ?_, ?_, ?_, ?_⟩
  · cases blank : Cursor.isBlank x with
    | false => rfl
    | true =>
      simp only [Cursor.isBlank, Bool.or_eq_true, decide_eq_true_eq] at blank
      rcases blank with ((rfl | rfl) | rfl) | rfl <;> exact absurd digit (by decide)
  all_goals
    rintro rfl
    exact absurd digit (by decide)

theorem value_digit {x : Char} (digit : x.isDigit = true) (ahead : c.skipBlanks.peek? = some x)
    (depth : Nat) : value depth c = Reader.number false c.skipBlanks := by
  obtain ⟨_, n, t, f, minus, quote, bracket, brace⟩ := plain_of_digit digit
  unfold value
  dsimp only
  rw [ahead]
  split
  · rename_i none
    cases none
  · rename_i same
    exact absurd (Option.some.inj same) n
  · rename_i same
    exact absurd (Option.some.inj same) t
  · rename_i same
    exact absurd (Option.some.inj same) f
  · rename_i same
    exact absurd (Option.some.inj same) minus
  · rename_i same
    exact absurd (Option.some.inj same) quote
  · rename_i same
    exact absurd (Option.some.inj same) bracket
  · rename_i same
    exact absurd (Option.some.inj same) brace
  · rename_i same
    obtain rfl := Option.some.inj same
    rw [if_pos digit]

theorem value_minus (ahead : c.skipBlanks.peek? = some '-') (depth : Nat) :
    value depth c = Reader.number true c.skipBlanks.advance := by
  unfold value
  dsimp only
  rw [ahead]
  rfl

theorem takes_int {i : Int} (low : -9223372036854775808 ≤ i) (high : i < 18446744073709551616)
    (stops : Stops rest) (depth : Nat) :
    Takes (value depth) (Number.int i).render.toList (.number (.int i)) rest := by
  intro p
  cases i with
  | ofNat n =>
    have text : (Number.int (Int.ofNat n)).render.toList = Nat.toDigits 10 n := by
      show n.repr.toList = _
      rw [Nat.repr_eq_ofList_toDigits, String.toList_ofList]
    have fits : n < word64 := Int.ofNat_lt.mp high
    have whole : wholeOf false (digitValues n) = some (.int (Int.ofNat n)) := by
      rw [wholeOf, accumulate_digitValues fits]
      rfl
    obtain ⟨q, read⟩ := takes_whole stops whole p
    refine ⟨q, ?_⟩
    rw [text]
    obtain ⟨x, cs, digits⟩ := List.exists_cons_of_ne_nil (Nat.toDigits_ne_nil (n := n) (b := 10))
    have digit : x.isDigit = true := Nat.isDigit_of_mem_toDigits (by decide) (by decide)
      (digits ▸ List.mem_cons_self : x ∈ Nat.toDigits 10 n)
    rw [digits, List.cons_append] at read ⊢
    have start := skipBlanks_cons (plain_of_digit digit).1 (cs ++ rest) p
    rw [value_digit digit (by rw [start]; rfl), start, read]
  | negSucc n =>
    have text : (Number.int (Int.negSucc n)).render.toList = '-' :: Nat.toDigits 10 (n + 1) := by
      show ("-" ++ (n + 1).repr).toList = _
      rw [Nat.repr_eq_ofList_toDigits, String.toList_append, String.toList_ofList (l := Nat.toDigits 10 _)]
      rfl
    have fits : n + 1 < word64 := by
      unfold word64
      omega
    have inside : 0 < n + 1 ∧ n + 1 ≤ 9223372036854775808 := by omega
    have whole : wholeOf true (digitValues (n + 1)) = some (.int (Int.negSucc n)) := by
      rw [wholeOf, accumulate_digitValues fits]
      simp only [if_true, if_pos inside]
      rfl
    obtain ⟨q, read⟩ := takes_whole stops whole (p.pass '-' 1)
    refine ⟨q, ?_⟩
    have start := skipBlanks_cons (by decide : Cursor.isBlank '-' = false)
      (Nat.toDigits 10 (n + 1) ++ rest) p
    rw [text, List.cons_append, value_minus (by rw [start]; rfl), start]
    exact read

theorem Behind.skipBlanks (h : Behind rest c c') (some : c.skipBlanks.rest ≠ []) :
    Behind rest c.skipBlanks c'.skipBlanks := by
  obtain ⟨cs, p⟩ := c
  obtain ⟨cs', p'⟩ := c'
  obtain rfl : cs' = cs ++ rest := h
  unfold Cursor.skipBlanks at some ⊢
  dsimp only at some ⊢
  induction cs generalizing p p' with
  | nil => exact absurd rfl some
  | cons x cs ih =>
    rw [Cursor.skipBlanks.go] at some
    simp only [List.cons_append, Cursor.skipBlanks.go]
    by_cases blank : Cursor.isBlank x = true
    · rw [if_pos blank] at some
      rw [if_pos blank, if_pos blank]
      exact ih _ some _
    · rw [if_neg blank, if_neg blank]
      rfl

theorem word_eq {v w : Json} {cs : List Char} {d : Cursor} (read : word v cs c = .ok (w, d)) : w = v := by
  induction cs generalizing c with
  | nil =>
    cases read
    rfl
  | cons x cs ih =>
    rw [word] at read
    split at read
    · cases read
    · split at read
      · exact ih read
      · unfold Cursor.failAhead at read
        split at read <;> cases read

/-- A number that is read at the end of a text is read in the middle of one. -/
theorem value_number {n : Number} {d : Cursor} (stops : Stops rest) (h : Behind rest c c')
    (read : value 0 c = .ok (.number n, d)) (depth : Nat) :
    ∃ d', value depth c' = .ok (.number n, d') ∧ Behind rest d d' := by
  have failing : ∀ (c : Cursor) (fault : ReadFault), c.failAhead fault ≠ .ok (Json.number n, d) := by
    intro c fault
    unfold Cursor.failAhead
    split <;> nofun
  unfold value at read
  dsimp only at read
  split at read
  · cases read
  · exact nomatch word_eq read
  · exact nomatch word_eq read
  · exact nomatch word_eq read
  · rename_i ahead
    have behind := h.skipBlanks (rest_of_peek? ahead)
    have ahead' : c'.skipBlanks.peek? = some '-' := by rw [behind.peek?, ahead, Option.some_or]
    rw [value_minus ahead']
    exact carries_number stops true (behind.advance (rest_of_peek? ahead)) _ _ read
  · cases text : Reader.string c.skipBlanks.advance with
    | error e =>
      rw [text] at read
      cases read
    | ok r =>
      rw [text] at read
      cases read
  · exact absurd read (failing _ _)
  · exact absurd read (failing _ _)
  · rename_i x _ _ _ _ _ _ _ ahead
    split at read
    · rename_i digit
      have behind := h.skipBlanks (rest_of_peek? ahead)
      have ahead' : c'.skipBlanks.peek? = some x := by rw [behind.peek?, ahead, Option.some_or]
      rw [value_digit digit ahead']
      exact carries_number stops false behind _ _ read
    · exact absurd read (failing _ _)

end Numbers
end ApiPayload.Json
