import Mathlib.Data.String.Basic
import ApiPayload.Proofs.Detachment

/-
Excerpts. What is kept of a long text is found as well by going back from the limit to the first boundary of
characters; a character takes four bytes at most, so at most three are given up. All that errors show of values
are excerpts.
-/
namespace ApiPayload

namespace Text
variable {limit n : Nat} {cs ds : List Char} {s : String}

section Fitting

theorem fitting_starts (limit : Nat) (cs : List Char) : fitting limit cs <+: cs := by
  induction cs generalizing limit with
  | nil => exact List.prefix_rfl
  | cons c rest ih =>
    rw [fitting]
    split
    · exact List.cons_prefix_cons.mpr ⟨rfl, ih _⟩
    · exact List.nil_prefix

theorem utf8Len_fitting_le (limit : Nat) (cs : List Char) : String.utf8Len (fitting limit cs) ≤ limit := by
  induction cs generalizing limit with
  | nil => exact Nat.zero_le limit
  | cons c rest ih =>
    rw [fitting]
    split
    · have kept := ih (limit - c.utf8Size)
      rw [String.utf8Len_cons]
      omega
    · exact Nat.zero_le limit

/-- Nothing that starts a text and fits is longer. -/
theorem fitting_longest (starts : ds <+: cs) (fits : String.utf8Len ds ≤ limit) : ds <+: fitting limit cs := by
  induction ds generalizing limit cs with
  | nil => exact List.nil_prefix
  | cons c ds ih =>
    obtain ⟨rest, rfl⟩ := starts
    rw [String.utf8Len_cons] at fits
    have first : c.utf8Size ≤ limit := by omega
    rw [List.cons_append, fitting, if_pos first]
    exact List.cons_prefix_cons.mpr ⟨rfl, ih (List.prefix_append ds rest) (by omega)⟩

/-- The first character that is left out would not have fitted. -/
theorem limit_lt_fitting (long : limit < String.utf8Len cs) : limit < String.utf8Len (fitting limit cs) + 4 := by
  induction cs generalizing limit with
  | nil => exact absurd long (Nat.not_lt_zero limit)
  | cons c rest ih =>
    rw [String.utf8Len_cons] at long
    have small := c.utf8Size_le_four
    rw [fitting]
    split
    · have kept := @ih (limit - c.utf8Size) (by omega)
      rw [String.utf8Len_cons]
      omega
    · rw [String.utf8Len_nil]
      omega

end Fitting

section Cutting

/-- Goes back to a boundary of characters. There is nowhere to go from zero. -/
def cutBack (s : String) (n : Nat) : Option Nat :=
  if (String.Pos.Raw.mk n).IsValid s then some n
  else
    match n with
    | 0 => none
    | n + 1 => cutBack s n

theorem isValid_iff_starts : (String.Pos.Raw.mk n).IsValid s ↔ ∃ cs, cs <+: s.toList ∧ n = String.utf8Len cs := by
  rw [String.Pos.Raw.isValid_iff_exists_take_toList]
  constructor
  · rintro ⟨i, here⟩
    exact ⟨_, List.take_prefix i _, here.trans (String.utf8ByteSize_ofList _)⟩
  · rintro ⟨cs, starts, rfl⟩
    refine ⟨cs.length, ?_⟩
    rw [← List.prefix_iff_eq_take.mp starts, String.utf8ByteSize_ofList]

theorem cutBack_eq {m : Nat} (boundary : (String.Pos.Raw.mk m).IsValid s) (reached : m ≤ n)
    (last : ∀ k, m < k → k ≤ n → ¬ (String.Pos.Raw.mk k).IsValid s) : cutBack s n = some m := by
  induction n with
  | zero =>
    obtain rfl := Nat.le_zero.mp reached
    rw [cutBack, if_pos boundary]
  | succ n ih =>
    by_cases here : m = n + 1
    · subst here
      rw [cutBack, if_pos boundary]
    · rw [cutBack, if_neg (last (n + 1) (by omega) (Nat.le_refl _))]
      exact ih (by omega) fun k after before => last k after (by omega)

theorem cutBack_fitting (s : String) (limit : Nat) :
    cutBack s limit = some (String.utf8Len (fitting limit s.toList)) := by
  refine cutBack_eq (isValid_iff_starts.mpr ⟨_, fitting_starts limit _, rfl⟩) (utf8Len_fitting_le limit _) ?_
  intro k after before boundary
  obtain ⟨ds, starts, rfl⟩ := isValid_iff_starts.mp boundary
  have shorter := String.utf8Len_le_of_prefix (fitting_longest starts before)
  omega

/-- The start of a text as bytes. -/
theorem toByteArray_of_starts (starts : cs <+: s.toList) :
    (String.ofList cs).toByteArray = s.toByteArray.extract 0 (String.utf8Len cs) := by
  obtain ⟨rest, whole⟩ := starts
  have split : s = String.ofList cs ++ String.ofList rest := by
    rw [← String.ofList_append, whole, String.ofList_toList]
  rw [split, String.toByteArray_append, ByteArray.extract_append_eq_left]
  rw [String.size_toByteArray, String.utf8ByteSize_ofList]

theorem excerpt_short (short : s.utf8ByteSize ≤ excerptBytes) : excerpt s = s := by
  rw [excerpt, if_pos short]

theorem excerpt_long (long : excerptBytes < s.utf8ByteSize) :
    excerpt s = String.ofList (fitting excerptBytes s.toList) ++ "..." := by
  rw [excerpt, if_neg (Nat.not_le.mpr long)]

theorem utf8ByteSize_excerpt_le (s : String) : (excerpt s).utf8ByteSize ≤ excerptBytes + 3 := by
  by_cases long : excerptBytes < s.utf8ByteSize
  · have kept := utf8Len_fitting_le excerptBytes s.toList
    rw [excerpt_long long, String.utf8ByteSize_append, String.utf8ByteSize_ofList]
    exact Nat.add_le_add_right kept 3
  · rw [excerpt_short (Nat.not_lt.mp long)]
    omega

end Cutting

end Text

section Shown
variable {α β link : Type} {d : Direction α β} {e : TransformError} {text : String}

theorem Plan.settle_error {follow : link → Except TransformError (Plan link)} {v : α} {fuel : Nat} {p : Plan link}
    (unsettled : (p.settle d v fuel).run follow = .error e) :
    (∃ l, follow l = .error e) ∨ ∃ model, e = .endless model := by
  induction fuel generalizing p with
  | zero =>
    unfold settle at unsettled
    split at unsettled
    · cases unsettled
    · cases unsettled
      exact .inr ⟨_, rfl⟩
  | succ fuel ih =>
    unfold settle at unsettled
    split at unsettled
    · cases unsettled
    · rename_i l _
      rw [Ask.run] at unsettled
      rcases Except.bind_eq_error.mp unsettled with lost | ⟨q, _, unsettled⟩
      · exact .inl ⟨l, lost⟩
      · exact ih unsettled

/-- What an error shows is a value in the value that was to be transformed, if errors on the way to plans show
nothing. By induction on the size of the value, which parts of it have less of. -/
theorem transformBy_shows {follow : link → Except TransformError (Plan link)}
    (silent : ∀ l e, follow l = .error e → e.shown? = none) {hops : Nat} {l : link} {v : α}
    (failed : (transformBy d hops l v).run follow = .error e) (shown : e.shown? = some text) :
    ∃ x, text = d.describe x := by
  induction size : d.size v using Nat.strongRecOn generalizing l v with
  | ind bound ih =>
    subst size
    rw [transformBy_run] at failed
    rcases Except.bind_eq_error.mp failed with lost | ⟨p, _, guarded⟩
    · rw [silent l e lost] at shown
      cases shown
    · rcases Plan.guard_error guarded with own | whole
      · exact ⟨v, own.2 text shown⟩
      · rcases Except.bind_eq_error.mp whole with unsettled | ⟨q, _, applied⟩
        · rcases Plan.settle_error unsettled with ⟨inner, lost⟩ | ⟨model, rfl⟩
          · rw [silent inner e lost] at shown
            cases shown
          · cases shown
        · rcases Plan.apply_error applied with own | ⟨inner, _, x, smaller, below⟩
          · exact ⟨v, own.2 text shown⟩
          · exact ih _ smaller below rfl

theorem Transform.call_shows {t : Transform} {alive : Bool} {v : α} (failed : t.call d alive v = .error e)
    (shown : e.shown? = some text) : ∃ x, text = d.describe x := by
  refine transformBy_shows (fun l e lost => ?_) failed shown
  obtain ⟨schema, rfl⟩ := Cache.follow_error lost
  rfl

/-- Native values are shown as what they are written as. -/
theorem Side.describe_eq (side : Side) (x : side.In) : ∃ j : Json, side.direction.describe x = j.describe := by
  cases side with
  | unmarshal => exact ⟨x, rfl⟩
  | marshal => exact ⟨Native.toJson x, rfl⟩

end Shown

/-- A text of at most 200 bytes is its own excerpt. Of a longer one the excerpt is the first n bytes and three dots,
where going back from 200 leads to n without coming near zero, and no start of the text within 200 bytes is longer
than these. So all that an error of a transform shows of a value, in either direction and with or without the spec,
is the excerpt of a value's text and has 203 bytes at most. -/
theorem excerpts_bounded :
    (∀ s : String, s.utf8ByteSize ≤ 200 → Text.excerpt s = s) ∧
    (∀ s : String, 200 < s.utf8ByteSize → ∃ n start, Text.cutBack s 200 = some n ∧ 197 ≤ n ∧ n ≤ 200 ∧
      start.toByteArray = s.toByteArray.extract 0 n ∧ Text.excerpt s = start ++ "..." ∧
      ∀ other rest, s = other ++ rest → other.utf8ByteSize ≤ 200 → other.utf8ByteSize ≤ n) ∧
    ∀ (side : Side) (t : Transform) (alive : Bool) (v : side.In) (e : TransformError) (text : String),
      t.call side.direction alive v = .error e → e.shown? = some text →
        (∃ j : Json, text = Text.excerpt j.compact) ∧ text.utf8ByteSize ≤ 203 := by
  refine ⟨fun s short => Text.excerpt_short short, fun s long => ?_, fun side t alive v e text failed shown => ?_⟩
  · have starts := Text.fitting_starts 200 s.toList
    have close : 200 < String.utf8Len (Text.fitting 200 s.toList) + 4 :=
      Text.limit_lt_fitting (by rwa [String.utf8Len_toList])
    refine ⟨_, _, Text.cutBack_fitting s 200, by omega, Text.utf8Len_fitting_le 200 _,
      Text.toByteArray_of_starts starts, Text.excerpt_long long, ?_⟩
    rintro other rest rfl fits
    rw [← String.utf8Len_toList] at fits ⊢
    have start : other.toList <+: (other ++ rest).toList := by
      rw [String.toList_append]
      exact List.prefix_append _ _
    exact String.utf8Len_le_of_prefix (Text.fitting_longest start fits)
  · obtain ⟨x, rfl⟩ := Transform.call_shows failed shown
    obtain ⟨j, same⟩ := side.describe_eq x
    rw [same]
    exact ⟨⟨j, rfl⟩, Text.utf8ByteSize_excerpt_le j.compact⟩

/-- A list of words. -/
def wordList : Json :=
  .object [("definitions", .object [("Words", .object [("type", .string "array"),
    ("items", .object [("type", .string "string")])])])]

/-- One word instead of a list, of which 200 bytes end inside a letter. -/
def sigh : Json := .string (String.ofList ('h' :: 'm' :: List.replicate 120 'é'))

theorem excerpts_bounded_in_words : 200 < sigh.compact.utf8ByteSize ∧
    (∃ n start, Text.cutBack sigh.compact 200 = some n ∧ 197 ≤ n ∧ n < 200 ∧
      Text.excerpt sigh.compact = start ++ "...") ∧
    ∃ s e text, Spec.build wordList .standard .standard = .ok s ∧ (s.unmarshal .empty 0 sigh).2 = .error e ∧
      e.shown? = some text ∧ (∃ j : Json, text = Text.excerpt j.compact) ∧ text.utf8ByteSize ≤ 203 := by
  have chars : sigh.chars = '"' :: (('h' :: 'm' :: List.replicate 120 'é').flatMap Json.escapeChar ++ ['"']) := by
    rw [sigh, Json.chars, Json.quoted, String.toList_ofList]
  have long : 200 < sigh.compact.utf8ByteSize := by
    rw [Json.compact, String.utf8ByteSize_ofList, chars]
    decide +kernel
  have inside : Text.cutBack sigh.compact 200 = some 199 := by
    rw [Text.cutBack_fitting, Json.compact, String.toList_ofList, chars]
    decide +kernel
  have made : (Spec.build wordList .standard .standard).toOption.any (fun s =>
      match (s.unmarshal .empty 0 sigh).2 with
      | .error e => e.shown?.isSome
      | .ok _ => false) = true := by
    decide +kernel
  obtain ⟨_, cuts, shows⟩ := excerpts_bounded
  obtain ⟨n, start, found, low, _, _, cut, _⟩ := cuts _ long
  obtain rfl := Option.some.inj (found.symm.trans inside)
  obtain ⟨s, built, failed⟩ := Except.exists_of_any made
  split at failed
  · rename_i e refused
    obtain ⟨text, shown⟩ := Option.isSome_iff_exists.mp failed
    obtain ⟨excerpt, bounded⟩ := shows .unmarshal (s.transform .empty 0 true).2 true sigh e text refused shown
    exact ⟨long, ⟨199, start, found, low, by decide, cut⟩, s, e, text, built, refused, shown, excerpt, bounded⟩
  · cases failed

end ApiPayload
