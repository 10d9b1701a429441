import Mathlib.Data.String.Basic
import ApiPayload.Calendar.DateTime

/-
Dates and times are read back from their written form. Numbers are padded to a width, and a reader
of digits takes such a number off whatever it stands before.
-/
namespace ApiPayload

theorem isBlank_of_isDigit {c : Char} (h : c.isDigit = true) : Text.isBlank c = false := by
  have range : 48 ≤ c.toNat ∧ c.toNat ≤ 57 := by simpa [Char.isDigit, UInt32.le_iff_toNat_le] using h
  simp [Text.isBlank, Text.blankRanges]
  omega

namespace Date

variable {rest : List Char} {w n : Nat}

theorem isDigit_of_mem_padded {c : Char} (h : c ∈ padded w n) : c.isDigit = true := by
  rcases List.mem_append.mp h with zero | digit
  · rw [List.eq_of_mem_replicate zero]
    rfl
  · exact Nat.isDigit_of_mem_toDigits (by decide) (by decide) digit

theorem padded_ne_nil (w n : Nat) : padded w n ≠ [] := by
  intro empty
  exact Nat.toDigits_ne_nil (List.append_eq_nil_iff.mp empty).2

theorem length_padded (positive : 0 < w) (fits : n < 10 ^ w) : (padded w n).length = w := by
  have few := (Nat.length_toDigits_le_iff (by decide) positive).mpr fits
  simp only [padded, List.length_append, List.length_replicate]
  omega

theorem ofDigitChars_padded (w n : Nat) : Nat.ofDigitChars 10 (padded w n) 0 = n := by
  rw [padded, Nat.ofDigitChars_append, Nat.ofDigitChars_replicate_zero, Nat.mul_zero,
    Nat.ofDigitChars_ten_toDigits]

theorem le_ofDigitChars (ds : List Char) (n : Nat) : n ≤ Nat.ofDigitChars 10 ds n := by
  rw [Nat.ofDigitChars_eq_ofDigitChars_zero]
  have grown := Nat.le_mul_of_pos_left n (Nat.pow_pos (n := ds.length) (show 0 < 10 by decide))
  omega

/-- No digit comes first. -/
def NoDigitHead (s : List Char) : Prop := ∀ c ∈ s.head?, c.isDigit = false

theorem digits_go_append {ds : List Char} {first : Bool} (room : Nat)
    (digit : ∀ c ∈ ds, c.isDigit = true) (started : first = true → ds ≠ [])
    (ends : room = 0 ∨ NoDigitHead rest)
    (bound : Nat.ofDigitChars 10 ds n < 9223372036854775808) :
    digits.go (ds.length + room) n first (ds ++ rest) = .ok (Nat.ofDigitChars 10 ds n, rest) := by
  induction ds generalizing n first with
  | nil =>
    have late : first = false := by
      cases first with
      | false => rfl
      | true => exact absurd rfl (started rfl)
    subst late
    cases room with
    | zero => rfl
    | succ room =>
      cases rest with
      | nil => rfl
      | cons c rest =>
        have none : c.isDigit = false := by
          rcases ends with full | none
          · cases full
          · exact none c rfl
        simp [digits.go, none]
  | cons c ds ih =>
    have here := digit c List.mem_cons_self
    rw [Nat.ofDigitChars_cons, Nat.mul_comm] at bound ⊢
    have small := Nat.lt_of_le_of_lt (le_ofDigitChars ds _) bound
    rw [List.length_cons, Nat.succ_add, List.cons_append, digits.go, if_pos here]
    simp only [small, if_true]
    exact ih (fun d member => digit d (List.mem_cons_of_mem c member)) (by simp) bound

theorem digits_padded (room w : Nat) (ends : room = 0 ∨ NoDigitHead rest)
    (bound : n < 9223372036854775808) :
    digits ((padded w n).length + room) (padded w n ++ rest) = .ok (n, rest) := by
  have value := ofDigitChars_padded w n
  have small : Nat.ofDigitChars 10 (padded w n) 0 < 9223372036854775808 := by
    rw [value]
    exact bound
  have digit : ∀ c ∈ padded w n, c.isDigit = true := fun c member => isDigit_of_mem_padded member
  rw [digits, digits_go_append room digit (fun _ => padded_ne_nil w n) ends small, value]

theorem digits_padded_full (positive : 0 < w) (fits : n < 10 ^ w)
    (bound : n < 9223372036854775808) : digits w (padded w n ++ rest) = .ok (n, rest) := by
  have read : digits ((padded w n).length + 0) (padded w n ++ rest) = .ok (n, rest) :=
    digits_padded 0 w (.inl rfl) bound
  rwa [length_padded positive fits] at read

theorem exists_cons_padded (w n : Nat) : ∃ c cs, padded w n = c :: cs ∧ c.isDigit = true := by
  cases chars : padded w n with
  | nil => exact absurd chars (padded_ne_nil w n)
  | cons c cs =>
    have member : c ∈ padded w n := by simp [chars]
    exact ⟨c, cs, rfl, isDigit_of_mem_padded member⟩

theorem skipBlanks_padded (w n : Nat) (rest : List Char) :
    skipBlanks (padded w n ++ rest) = padded w n ++ rest := by
  obtain ⟨c, cs, chars, digit⟩ := exists_cons_padded w n
  rw [chars, skipBlanks, List.cons_append, List.dropWhile_cons_of_neg]
  simp [isBlank_of_isDigit digit]

theorem readPart_padded {bound : Nat} (rest : List Char) (low : 1 ≤ n) (high : n ≤ bound)
    (fits : n < 100) :
    readPart bound (padded 2 n ++ rest) = .ok (n, rest) := by
  have read : digits 2 (padded 2 n ++ rest) = .ok (n, rest) :=
    digits_padded_full (by decide) fits (by omega)
  rw [readPart, skipBlanks_padded]
  simp only [read, bind, Except.bind, low, high, and_self, if_true]

section Years

variable {cs : List Char} (fits : n < 2147483648)

/-- The bound is a name here: the kernel would compare with the number by counting up to it. -/
theorem year_in_bound {digits : Except DateFault (Nat × List Char)} {bound : Int} (f : Nat → Int)
    (read : digits = .ok (n, rest)) (fits : -bound ≤ f n ∧ f n < bound) :
    (do
      let found ← digits
      let found ← pure (f found.1, found.2)
      if -bound ≤ found.1 ∧ found.1 < bound then Except.ok (found.1, found.2)
        else .error .outOfRange) = .ok (f n, rest) := by
  rw [read]
  exact if_pos fits

include fits

theorem readYear_digit {c : Char} (digit : c.isDigit = true)
    (read : digits 4 (c :: cs) = .ok (n, rest)) : readYear (c :: cs) = .ok ((n : Int), rest) := by
  have blank := isBlank_of_isDigit digit
  have kept : skipBlanks (c :: cs) = c :: cs := by simp [skipBlanks, blank]
  unfold readYear
  rw [kept]
  split
  · rename_i minus
    obtain ⟨rfl, _⟩ := List.cons.inj minus
    cases digit
  · rename_i plus
    obtain ⟨rfl, _⟩ := List.cons.inj plus
    cases digit
  · exact year_in_bound (fun n => n) read (by omega)

theorem readYear_minus (read : digits cs.length.succ cs = .ok (n, rest)) :
    readYear ('-' :: cs) = .ok (-(n : Int), rest) :=
  year_in_bound (fun n => -n) read (by omega)

theorem readYear_plus (read : digits cs.length.succ cs = .ok (n, rest)) :
    readYear ('+' :: cs) = .ok ((n : Int), rest) :=
  year_in_bound (fun n => n) read (by omega)

end Years

theorem readYear_yearChars {year : Int} (low : minYear ≤ year) (high : year ≤ maxYear)
    (ends : NoDigitHead rest) : readYear (yearChars year ++ rest) = .ok (year, rest) := by
  have small : year.natAbs < 262144 := by
    simp only [minYear, maxYear] at low high
    omega
  unfold yearChars
  split
  · have read : digits 4 (padded 4 year.natAbs ++ rest) = .ok (year.natAbs, rest) :=
      digits_padded_full (by decide) (by omega) (by omega)
    obtain ⟨c, cs, chars, digit⟩ := exists_cons_padded 4 year.natAbs
    rw [chars, List.cons_append] at read ⊢
    rw [readYear_digit (by omega) digit read, Int.natAbs_of_nonneg (by omega)]
  · have read := digits_padded (n := year.natAbs) (rest.length + 1) 4 (.inr ends) (by omega)
    rw [← Nat.add_assoc, ← List.length_append] at read
    by_cases negative : year < 0
    · rw [if_pos negative, List.cons_append, readYear_minus (by omega) read]
      have same : -(year.natAbs : Int) = year := by omega
      rw [same]
    · rw [if_neg negative, List.cons_append, readYear_plus (by omega) read,
        Int.natAbs_of_nonneg (by omega)]

theorem daysIn_le (year : Int) (month : Nat) : daysIn year month ≤ 31 := by
  unfold daysIn
  split
  · split <;> decide
  · split <;> decide

/-- Dates are read back from their written form. -/
theorem read_text (d : Date) : read d.text = .ok d := by
  obtain ⟨year, month, day, real⟩ := d
  have days := daysIn_le year month
  have whole : of? year month day = some ⟨year, month, day, real⟩ := dif_pos real
  obtain ⟨low, high, firstMonth, lastMonth, firstDay, lastDay⟩ := real
  have mark : ∀ cs, NoDigitHead ('-' :: cs) := by
    intro cs c head
    cases head
    rfl
  have atYear := readYear_yearChars low high (mark (padded 2 month ++ '-' :: padded 2 day))
  have atMonth := readPart_padded ('-' :: padded 2 day) firstMonth lastMonth (by omega)
  have atDay := readPart_padded [] firstDay (show day ≤ 31 by omega) (by omega)
  rw [List.append_nil] at atDay
  simp only [read, text, chars, String.toList_ofList, List.append_assoc, List.cons_append,
    atYear, atMonth, atDay, expect, bind, Except.bind, if_true, ne_eq, not_true_eq_false,
    if_false, whole]

end Date

namespace DateTime

open Date (padded NoDigitHead)

variable {rest : List Char} {w n : Nat}

theorem fixedDigits_append {ds : List Char} (digit : ∀ c ∈ ds, c.isDigit = true) :
    fixedDigits ds.length n (ds ++ rest) = .ok (Nat.ofDigitChars 10 ds n, rest) := by
  induction ds generalizing n with
  | nil => rfl
  | cons c ds ih =>
    rw [List.length_cons, List.cons_append, fixedDigits, if_pos (digit c List.mem_cons_self),
      ih fun d member => digit d (List.mem_cons_of_mem c member), Nat.ofDigitChars_cons, Nat.mul_comm]

theorem fixedDigits_padded (positive : 0 < w) (fits : n < 10 ^ w) :
    fixedDigits w 0 (padded w n ++ rest) = .ok (n, rest) := by
  have digit : ∀ c ∈ padded w n, c.isDigit = true :=
    fun c member => Date.isDigit_of_mem_padded member
  have read : fixedDigits (padded w n).length 0 (padded w n ++ rest) = _ := fixedDigits_append digit
  rwa [Date.length_padded positive fits, Date.ofDigitChars_padded] at read

/-- A fraction that is written as a count of its smallest part. -/
theorem readFraction_padded {k : Nat} (positive : 0 < k) (few : k ≤ 9) (fits : n < 10 ^ k)
    (ends : NoDigitHead rest) :
    readFraction ('.' :: padded k n ++ rest) = .ok (n * 10 ^ (9 - k), rest) := by
  have length := Date.length_padded positive fits
  have small : n < 9223372036854775808 := by
    have most : 10 ^ k ≤ 10 ^ 9 := Nat.pow_le_pow_right (by decide) few
    omega
  have read := Date.digits_padded (9 - k) k (.inr ends) small
  rw [length, Nat.add_sub_of_le few] at read
  have count : (padded k n ++ rest).length - rest.length = k := by
    rw [List.length_append, length, Nat.add_sub_cancel]
  have past : rest.dropWhile Char.isDigit = rest := by
    cases rest with
    | nil => rfl
    | cons c rest => exact List.dropWhile_cons_of_neg (by simp [ends c rfl])
  simp only [readFraction, List.cons_append, read, bind, Except.bind, count, past, Nat.pow_eq]

theorem readFraction_none (ends : ∀ c ∈ rest.head?, c ≠ '.') : readFraction rest = .ok (0, rest) := by
  unfold readFraction
  split
  · exact absurd rfl (ends '.' rfl)
  · rfl

theorem offsetChars_head (offset : Int) :
    ∀ c ∈ (offsetChars offset).head?, c.isDigit = false ∧ c ≠ '.' := by
  intro c head
  unfold offsetChars at head
  split at head
  · cases head
    decide
  · split at head
    · cases head
      decide
    · cases head
      decide

theorem readFraction_fractionChars {nanos : Nat} (fits : nanos < billion)
    (head : ∀ c ∈ rest.head?, c.isDigit = false ∧ c ≠ '.') :
    readFraction (fractionChars nanos ++ rest) = .ok (nanos, rest) := by
  have ends : NoDigitHead rest := fun c first => (head c first).1
  unfold billion at fits
  unfold fractionChars
  split
  · rename_i zero
    rw [zero]
    exact readFraction_none fun c first => (head c first).2
  · split
    · rw [readFraction_padded (by decide) (by decide) (by omega) ends]
      congr
      omega
    · split
      · rw [readFraction_padded (by decide) (by decide) (by omega) ends]
        congr
        omega
      · rw [readFraction_padded (by decide) (by decide) (by omega) ends]
        congr
        omega

theorem pair_padded (rest : List Char) (fits : n < 100) : ∃ a b, pair (padded 2 n ++ rest) = .ok (a, b, rest) ∧
    a * 10 + b = n := by
  obtain ⟨a, b, chars⟩ := List.length_eq_two.mp (Date.length_padded (by decide) fits)
  have first : a.isDigit = true := Date.isDigit_of_mem_padded (w := 2) (n := n) (by simp [chars])
  have second : b.isDigit = true := Date.isDigit_of_mem_padded (w := 2) (n := n) (by simp [chars])
  have value := Date.ofDigitChars_padded 2 n
  rw [chars, Nat.ofDigitChars_cons, Nat.ofDigitChars_cons, Nat.ofDigitChars_nil] at value
  refine ⟨a.toNat - '0'.toNat, b.toNat - '0'.toNat, ?_, by omega⟩
  simp [chars, pair, first, second]

theorem readOffset_offsetChars {offset : Int} (low : -1440 < offset) (high : offset < 1440) :
    readOffset (offsetChars offset) = .ok (offset, []) := by
  obtain ⟨h1, h2, hours, hour⟩ :=
    pair_padded (':' :: padded 2 (offset.natAbs % 60)) (show offset.natAbs / 60 < 100 by omega)
  obtain ⟨m1, m2, minutes, minute⟩ := pair_padded [] (show offset.natAbs % 60 < 100 by omega)
  rw [List.append_nil] at minutes
  have tens : ¬ 6 ≤ m1 := by omega
  unfold offsetChars
  split
  · rename_i zero
    rw [zero]
    rfl
  · by_cases negative : offset < 0
    · rw [if_pos negative]
      simp only [readOffset, List.cons_append, hours, bind, Except.bind, Date.expect, if_true,
        minutes, tens, if_false]
      congr
      omega
    · rw [if_neg negative]
      simp only [readOffset, List.cons_append, hours, bind, Except.bind, Date.expect, if_true,
        minutes, tens, if_false]
      congr
      omega

theorem length_le_utf8ByteSize (cs : List Char) : cs.length ≤ (String.ofList cs).utf8ByteSize := by
  induction cs with
  | nil => exact Nat.zero_le _
  | cons c cs ih =>
    rw [← List.singleton_append, String.ofList_append, String.utf8ByteSize_append, List.length_append]
    have one : (String.ofList [c]).utf8ByteSize = c.utf8Size := by simp
    have positive := c.utf8Size_pos
    rw [one, List.length_singleton]
    omega

theorem least_le_utf8ByteSize (t : DateTime) : ¬ t.text.utf8ByteSize < least := by
  have bytes := length_le_utf8ByteSize t.chars
  have two : ∀ n, 2 ≤ (padded 2 n).length := by
    intro n
    simp only [padded, List.length_append, List.length_replicate]
    omega
  have four : 4 ≤ (padded 4 t.date.year.natAbs).length := by
    simp only [padded, List.length_append, List.length_replicate]
    omega
  have year : Date.yearChars t.date.year = padded 4 t.date.year.natAbs :=
    if_pos ⟨t.isReal.1, t.isReal.2.1⟩
  have month := two t.date.month
  have day := two t.date.day
  have hour := two t.hour
  have minute := two t.minute
  have second := two (if billion ≤ t.nanos then t.second + 1 else t.second)
  have parts : 19 ≤ t.chars.length := by
    simp only [chars, Date.chars, year, List.length_append, List.length_cons, decide_eq_true_eq]
    omega
  rw [text, least]
  omega

/-- A leap second is shown as second 60 and its fraction without the first billion. -/
theorem unleap {second nanos : Nat} (seconds : second < 60) (most : nanos < 2 * billion)
    (leap : billion ≤ nanos → second = 59) :
    let shown := if billion ≤ nanos then second + 1 else second
    let fraction := if billion ≤ nanos then nanos - billion else nanos
    shown < 61 ∧ fraction < billion ∧ (if shown = 60 then 59 else shown) = second ∧
      (if shown = 60 then billion + fraction else fraction) = nanos := by
  intro shown fraction
  by_cases late : billion ≤ nanos
  · have last := leap late
    subst last
    simp only [shown, fraction, late, if_true]
    exact ⟨by decide, by omega, trivial, Nat.add_sub_of_le late⟩
  · have other : second ≠ 60 := by omega
    simp only [shown, fraction, late, other, if_false]
    exact ⟨by omega, by omega, trivial, trivial⟩

/-- Points of time are read back from their written form. -/
theorem read_text (t : DateTime) : read t.text = .ok t := by
  have long := t.least_le_utf8ByteSize
  obtain ⟨⟨year, month, day, exist⟩, hour, minute, second, nanos, offset, real⟩ := t
  have whole : Date.of? year month day = some ⟨year, month, day, exist⟩ := dif_pos exist
  have days := Date.daysIn_le year month
  obtain ⟨_, _, _, months, _, inMonth⟩ := exist
  have ⟨(positive : 0 ≤ year), (few : year ≤ 9999), hours, minutes, seconds, most, leap, low, high⟩ :=
    real
  obtain ⟨shown, part, second_back, nanos_back⟩ := unleap seconds most leap
  have yearShown : Date.yearChars year = padded 4 year.natAbs := if_pos ⟨positive, few⟩
  have year_back : (year.natAbs : Int) = year := Int.natAbs_of_nonneg positive
  have atYear : ∀ rest, fixedDigits 4 0 (padded 4 year.natAbs ++ rest) = .ok (year.natAbs, rest) :=
    fun rest => fixedDigits_padded (by decide) (by omega)
  have two : ∀ n rest, n < 100 → fixedDigits 2 0 (padded 2 n ++ rest) = .ok (n, rest) :=
    fun n rest fits => fixedDigits_padded (by decide) fits
  have atMonth := fun rest => two month rest (by omega)
  have atDay := fun rest => two day rest (by omega)
  have atHour := fun rest => two hour rest (by omega)
  have atMinute := fun rest => two minute rest (by omega)
  have atSecond := fun rest => two _ rest (Nat.lt_trans shown (by decide))
  have fraction := readFraction_fractionChars part (offsetChars_head offset)
  have atOffset := readOffset_offsetChars low high
  have dash : ∀ rest, expectOne ['-'] ('-' :: rest) = .ok rest := fun _ => rfl
  have mark : ∀ rest, expectOne ['T', 't', ' '] ('T' :: rest) = .ok rest := fun _ => rfl
  have colon : ∀ rest, expectOne [':'] (':' :: rest) = .ok rest := fun _ => rfl
  have inDay : ¬(23 < hour ∨ 59 < minute ∨ 60 < (if billion ≤ nanos then second + 1 else second)) := by
    omega
  unfold read
  rw [if_neg long]
  simp only [text, chars, Date.chars, String.toList_ofList, List.append_assoc, List.cons_append,
    yearShown, atYear, atMonth, atDay, atHour, atMinute, atSecond, fraction, atOffset, dash, mark,
    colon, bind, Except.bind, ne_eq, not_true_eq_false, if_false, year_back, whole,
    decide_eq_true_eq, second_back, nanos_back, inDay]
  exact dif_pos real

end DateTime
end ApiPayload
