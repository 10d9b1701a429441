import ApiPayload.Proofs.Rewriting
import ApiPayload.Proofs.RuleReadings
import ApiPayload.Proofs.Validations

/-
Rules and the schemas that they are read from. A reference in a table of rules stands for what it leads to
in the document, so a schema is judged by the rules that its own plain form has, as long as the document
can be read at all and the text of its pointer is read as it is written.
-/
namespace ApiPayload

/-- A loop over bytes keeps what it has taken, the last first. -/
theorem toList_loop (bs : ByteArray) (i : Nat) (taken : List UInt8) :
    ByteArray.toList.loop bs i taken = taken.reverse ++ bs.data.toList.drop i := by
  fun_induction ByteArray.toList.loop bs i taken with
  | case1 i taken inside ih =>
    have present : i < bs.data.toList.length := inside
    have byte : bs.get! i = bs.data.toList[i] :=
      (getElem!_pos bs.data i present).trans (Array.getElem_toList present).symm
    rw [ih, List.drop_eq_getElem_cons present, List.reverse_cons, List.append_assoc, byte]
    rfl
  | case2 i taken beyond =>
    have none : bs.data.toList.length ≤ i := Nat.le_of_not_lt beyond
    rw [List.drop_eq_nil_of_le none, List.append_nil]

theorem toList_toUTF8 (c : Char) : (String.singleton c).toUTF8.toList = String.utf8EncodeChar c := by
  rw [ByteArray.toList, toList_loop]
  show (String.singleton c).toByteArray.data.toList = _
  rw [String.toByteArray_singleton, List.utf8Encode, List.toList_data_toByteArray, List.flatMap_singleton]

namespace Validation

section Table
variable {document : Json} {table table' : List (String × Rule)} {reference : String} {fuel : Nat}

/-- Every rule of a table is the one that its reference leads to. -/
def Sound (document : Json) (table : List (String × Rule)) : Prop :=
  ∀ reference rule, Entries.get? reference table = some rule → ∃ schema,
    Reference.resolve document reference = .ok schema ∧ (Rule.ofJson schema).result = .ok rule

/-- What has been looked up stays, and what comes in is what it leads to. -/
structure Grown (document : Json) (table table' : List (String × Rule)) : Prop where
  sound : Sound document table → Sound document table'
  kept : ∀ reference ∈ Entries.keys table, reference ∈ Entries.keys table'

theorem Grown.refl (document : Json) (table : List (String × Rule)) : Grown document table table :=
  ⟨id, fun _ => id⟩

theorem Grown.trans {table'' : List (String × Rule)} (first : Grown document table table')
    (later : Grown document table' table'') : Grown document table table'' :=
  ⟨later.sound ∘ first.sound, fun r => later.kept r ∘ first.kept r⟩

theorem foldlM_grown {f : List (String × Rule) → String → Except Fault (List (String × Rule))}
    (deep : Prop) (each : ∀ table r table', f table r = .ok table' →
      Grown document table table' ∧ (deep → r ∈ Entries.keys table')) :
    ∀ {refs : List String} {table table'}, refs.foldlM f table = .ok table' →
      Grown document table table' ∧ (deep → ∀ r ∈ refs, r ∈ Entries.keys table') := by
  intro refs
  induction refs with
  | nil =>
    intro table table' run
    cases run
    exact ⟨.refl document table, fun _ _ none => nomatch none⟩
  | cons r rest ih =>
    intro table table'' run
    rw [List.foldlM_cons] at run
    obtain ⟨table', step, later⟩ := Except.bind_eq_ok.mp run
    obtain ⟨first, known⟩ := each table r table' step
    obtain ⟨others, listed⟩ := ih later
    exact ⟨first.trans others, fun enough =>
      List.forall_mem_cons.mpr ⟨others.kept r (known enough), listed enough⟩⟩

theorem grown_append {schema : Json} {rule : Rule}
    (resolved : Reference.resolve document reference = .ok schema)
    (read : (Rule.ofJson schema).result = .ok rule) :
    Grown document table (table ++ [(reference, rule)]) := by
  refine ⟨fun sound other found there => ?_, fun other known => ?_⟩
  · rw [Entries.get?_append] at there
    rcases Option.or_eq_some_iff.mp there with there | ⟨_, there⟩
    · exact sound other found there
    · rw [Entries.get?] at there
      split at there
      · rename_i same
        cases there
        exact same ▸ ⟨schema, resolved, read⟩
      · cases there
  · rw [Entries.keys, List.map_append]
    exact List.mem_append_left _ known

theorem addReference_grown (run : Rules.addReference document fuel table reference = .ok table') :
    Grown document table table' ∧ (0 < fuel → reference ∈ Entries.keys table') := by
  induction fuel generalizing table reference table' with
  | zero =>
    cases run
    exact ⟨.refl document table, fun none => absurd none (Nat.lt_irrefl 0)⟩
  | succ fuel ih =>
    rw [Rules.addReference] at run
    split at run
    · rename_i known
      cases run
      exact ⟨.refl document table, fun _ => Entries.contains_iff.mp known⟩
    · obtain ⟨schema, resolved, run⟩ := Except.bind_eq_ok.mp run
      obtain ⟨last, below, ends⟩ := Except.bind_eq_ok.mp run
      obtain ⟨later, _⟩ := foldlM_grown (0 < fuel) (fun _ _ _ step => ih step) below
      cases read : (Rule.ofJson schema).result with
      | error e =>
        rw [read] at ends
        cases ends
      | ok rule =>
        rw [read] at ends later
        cases ends
        refine ⟨(grown_append resolved read).trans later, fun _ => later.kept _ ?_⟩
        rw [Entries.keys, List.map_append]
        exact List.mem_append_right _ (List.mem_singleton_self _)

/-- The rules of a document: the rule of the whole, and for each reference what it leads to. -/
theorem ofDocument_ok {rules : Rules} (read : Rules.ofDocument document = .ok rules) :
    (Rule.ofJson document).result = .ok rules.root ∧ Sound document rules.table ∧
      ∀ r ∈ (Rule.ofJson document).refs, r ∈ Entries.keys rules.table := by
  obtain ⟨table, looked, read⟩ := Except.bind_eq_ok.mp read
  obtain ⟨root, first, read⟩ := Except.bind_eq_ok.mp read
  cases read
  obtain ⟨grown, known⟩ := foldlM_grown (0 < document.size + 1)
    (fun _ _ _ step => addReference_grown step) looked
  have none : Sound document [] := fun _ _ there => nomatch there
  exact ⟨first, grown.sound none, known (Nat.succ_pos _)⟩

end Table

namespace Reference
variable {cs : List Char}

theorem decodeBytes_literal (literal : '%' ∉ cs) : decodeBytes cs = cs.flatMap String.utf8EncodeChar := by
  induction cs with
  | nil => rw [decodeBytes, List.flatMap_nil]
  | cons c rest ih =>
    have other : c ≠ '%' := fun same => literal (same ▸ List.mem_cons_self)
    rw [List.flatMap_cons, ← ih fun member => literal (List.mem_cons_of_mem c member), ← toList_toUTF8]
    rw [decodeBytes]
    rintro a b rest' same
    exact absurd same other

theorem decode_literal (literal : '%' ∉ cs) : decode cs = cs := by
  have bytes : (decodeBytes cs).toByteArray = (String.ofList cs).toByteArray := by
    rw [decodeBytes_literal literal, String.toByteArray_ofList, List.utf8Encode]
  have valid : (String.ofList cs).toByteArray.IsValidUTF8 := (String.ofList cs).isValidUTF8
  rw [decode, bytes, String.fromUTF8?, dif_pos valid]
  exact String.toList_ofList

end Reference

end Validation

namespace Pointer

/-- Rules read the text of a pointer as it is: nothing in it is percent-encoded, and it starts with a
token. -/
def Literal (p : Pointer) : Prop := '%' ∉ p.text.toList ∧ p.tokens.head? ≠ some ""

instance : DecidablePred Literal := fun p =>
  inferInstanceAs (Decidable ('%' ∉ p.text.toList ∧ p.tokens.head? ≠ some ""))

open Validation

theorem way_label {p : Pointer} (plain : p.Plain) (literal : p.Literal) :
    Reference.way? p.label = some p.tokens := by
  have written : p.label.toList = '#' :: spelling p.tokens := by
    rw [label, String.toList_append, toList_text]
    rfl
  rw [Reference.way?, written, List.drop_succ_cons, List.drop_zero]
  have encoded := literal.1
  rw [toList_text] at encoded
  obtain ⟨ts⟩ := p
  cases ts with
  | nil => rfl
  | cons t ts =>
    have decoded : Reference.decode (t.toList ++ spelling ts) = t.toList ++ spelling ts :=
      Reference.decode_literal fun inside => encoded (List.mem_cons_of_mem _ inside)
    show some (ofParts (Reference.decode (t.toList ++ spelling ts))).tokens = some (t :: ts)
    rw [decoded, ofParts_spelling plain]

end Pointer

namespace Spec

open Schema Validation

variable {document : Json} {s : Spec} {naming : Naming} {order : List Pointer} {id : Id} {r : Rules}

theorem rules_eq_ok (read : s.rules id = .ok r) : Rules.ofDocument (s.plainDocument id) = .ok r := by
  obtain ⟨_, _, read⟩ := Except.bind_eq_ok.mp (Except.mapError_eq_ok.mp read)
  obtain ⟨_, _, read⟩ := Except.bind_eq_ok.mp read
  exact read

section Judged
variable (h : s.ReadAs document naming order) (unique : document.KeysUnique) (inside : id < s.nodes.size)
  (literal : (s.node id).pointer.Literal) (read : s.rules id = .ok r)
include h inside literal

theorem ReadAs.way_label : Reference.way? (s.node id).pointer.label = some (s.node id).pointer.tokens := by
  refine Pointer.way_label ?_ literal
  rw [h.size_eq] at inside
  rw [h.pointer_eq inside]
  exact h.plain inside

include unique

/-- What the reference at the root leads to is the plain form of the schema, as a text is no schema. -/
theorem ReadAs.resolved_label {schema : Json} {rule : Rule} (other : (s.node id).pointer ≠ .root)
    (resolved : Reference.resolve (s.plainDocument id) (s.node id).pointer.label = .ok schema)
    (ruled : (Rule.ofJson schema).result = .ok rule) : schema = PlainSchema.plain (s.node id).raw := by
  obtain ⟨_, ts, way, found⟩ := Reference.resolve_eq_ok.mp resolved
  obtain rfl := Option.some.inj ((h.way_label inside literal).symm.trans way)
  have root := (h.root_reference inside other).1
  obtain ⟨there, whole⟩ := h.schema_raw inside
  cases tokens : (s.node id).pointer.tokens with
  | nil => exact absurd (congrArg Pointer.mk tokens) other
  | cons t rest =>
    have named : t ≠ "" := by
      rintro rfl
      exact literal.2 (by rw [tokens]; rfl)
    have led : (s.node id).pointer.tokens.dropWhile (· = "") = (s.node id).pointer.tokens := by
      rw [tokens]
      exact List.dropWhile_cons_of_neg (by simpa using named)
    by_cases aside : Pointer.unescape t = "$ref"
    · -- the way starts at the new reference, and none goes on from there
      obtain ⟨ms, same⟩ := object_of_member root
      rw [same, tokens] at found
      obtain ⟨x, first, later⟩ := Option.bind_eq_some_iff.mp found
      rw [same, Json.member?, ← aside] at root
      obtain rfl := Option.some.inj (root.symm.trans first)
      cases rest with
      | nil =>
        cases later
        cases ruled
      | cons => cases later
    · have kept := h.find?_kept unique (q := id) (p := (s.node id).pointer) (by
        rw [Pointer.Inner, led, tokens]
        exact aside) there whole
      rw [Pointer.find?, led] at kept
      exact Option.some.inj (found.symm.trans kept)

include read

/-- A schema is judged by the rule of its plain form. -/
theorem ReadAs.judged : ∃ rule, (Rule.ofJson (PlainSchema.plain (s.node id).raw)).result = .ok rule ∧
    ∀ v n, r.steps v ≤ n → r.violations v = violations r.table n .all rule v .root := by
  obtain ⟨first, sound, known⟩ := ofDocument_ok (rules_eq_ok read)
  by_cases root : (s.node id).pointer = .root
  · refine ⟨r.root, ?_, fun v n enough => (Rules.violations_enough v enough).symm⟩
    obtain ⟨ms, rfl⟩ := h.object inside
    obtain ⟨there, _⟩ := h.schema_raw inside
    rw [root] at there
    have whole : (s.node id).raw = .object ms := (Option.some.inj there).symm
    rw [plainDocument, h.same, root] at first
    rw [whole]
    exact first
  · have referring := (h.root_reference inside root).1
    obtain ⟨ms, same⟩ := object_of_member referring
    rw [same, Json.member?] at referring
    rw [same, ofJson_reference referring] at first known
    have listed := known _ (List.mem_singleton_self _)
    obtain ⟨rule, there⟩ := Option.isSome_iff_exists.mp (Entries.contains_iff.mpr listed)
    obtain ⟨schema, resolved, ruled⟩ := sound _ rule there
    obtain rfl := h.resolved_label unique inside literal root resolved ruled
    refine ⟨rule, ruled, fun v n enough => ?_⟩
    -- the first step is the one to the schema
    rw [← Rules.violations_enough v (Nat.le_succ_of_le enough), ← Except.ok.inj first, violations_ref there]

end Judged
end Spec
end ApiPayload
