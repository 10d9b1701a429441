import ApiPayload.Proofs.Complete
import ApiPayload.Validation.Validate

/-
Documents made plain for validation. Making a document plain changes types that are written as texts and
nothing else, and no way to a schema passes a text; so a way into the document leads to the plain form of
what it led to before, unless it starts with the reference that the plain document gets at its root.
-/
namespace ApiPayload

section Erased
variable {κ : Type u} {α : Type v} [DecidableEq κ] {key other : κ} {es before after : List (κ × α)}
  {value : α}

theorem Entries.mem_keys (found : get? key es = some value) : key ∈ keys es :=
  List.mem_map.mpr ⟨_, mem_of_get? found, rfl⟩

/-- The last entry moves, all others stay. -/
theorem Entries.swapErase_perm (fresh : key ∉ keys before) :
    (swapErase key (before ++ (key, value) :: after)).Perm (before ++ after) := by
  have place : (before ++ (key, value) :: after).findIdx? (·.1 = key) = some before.length := by
    rw [List.findIdx?_append, List.findIdx?_eq_none_iff.mpr]
    · simp [List.findIdx?_cons]
    · rintro ⟨k, a⟩ member
      exact decide_eq_false fun same => fresh (List.mem_map.mpr ⟨_, member, same⟩)
  rw [swapErase, place]
  rcases List.eq_nil_or_concat after with rfl | ⟨inner, last, rfl⟩
  · simp
  · rw [List.concat_eq_append]
    have ends : (before ++ (key, value) :: (inner ++ [last])).getLast? = some last := by
      rw [← List.cons_append, ← List.append_assoc, List.getLast?_concat]
    have changed : (before ++ (key, value) :: (inner ++ [last])).set before.length last =
        (before ++ last :: inner) ++ [last] := by simp
    rw [ends]
    show ((before ++ (key, value) :: (inner ++ [last])).set before.length last).dropLast.Perm _
    rw [changed, List.dropLast_concat]
    exact (List.perm_append_singleton last inner).symm.append_left before

/-- A known key with what stands around it, which is what erasing it leaves. -/
theorem Entries.swapErase_split (distinct : (keys es).Nodup) (known : key ∈ keys es) :
    ∃ before value after, es = before ++ (key, value) :: after ∧
      (swapErase key es).Perm (before ++ after) ∧ key ∉ keys (before ++ after) ∧
      (keys (before ++ after)).Nodup := by
  obtain ⟨⟨k, value⟩, listed, same⟩ := List.mem_map.mp known
  obtain rfl : k = key := same
  obtain ⟨before, after, rfl⟩ := List.append_of_mem listed
  rw [keys, List.map_append, List.map_cons] at distinct
  obtain ⟨fresh, rest⟩ := List.nodup_cons.mp (List.nodup_middle.mp distinct)
  have left : (swapErase k (before ++ (k, value) :: after)).Perm (before ++ after) :=
    swapErase_perm fun member => fresh (List.mem_append_left _ member)
  rw [← List.map_append] at fresh rest
  exact ⟨before, value, after, rfl, left, fresh, rest⟩

theorem Entries.swapErase_nodup (distinct : (keys es).Nodup) (known : key ∈ keys es) :
    (keys (swapErase key es)).Nodup := by
  obtain ⟨_, _, _, _, left, _, rest⟩ := swapErase_split distinct known
  exact (left.map Prod.fst).nodup_iff.mpr rest

theorem Entries.get?_swapErase (distinct : (keys es).Nodup) (known : key ∈ keys es) (other : κ) :
    get? other (swapErase key es) = if key = other then none else get? other es := by
  obtain ⟨before, value, after, rfl, left, fresh, rest⟩ := swapErase_split distinct known
  rw [get?_perm left.symm rest]
  split
  · rename_i same
    exact (get?_eq_none_iff _ _).mpr (same ▸ fresh)
  · rename_i different
    rw [get?_append, get?_append, get?, if_neg different]

end Erased

namespace Pointer

/-- A way into a document that does not start with the reference of the whole. -/
def Aside : List String → Prop
  | [] => False
  | t :: _ => unescape t ≠ "$ref"

instance : DecidablePred Aside
  | [] => .isFalse id
  | t :: _ => inferInstanceAs (Decidable (unescape t ≠ "$ref"))

/-- A place that is neither the whole document nor in its own reference. -/
def Inner (p : Pointer) : Prop := Aside (p.tokens.dropWhile (· = ""))

instance : DecidablePred Inner := fun p => inferInstanceAs (Decidable (Aside (p.tokens.dropWhile (· = ""))))

end Pointer

namespace Validation.PlainSchema
variable {v w x document : Json} {ms : List (String × Json)} {key : String} {ts : List String}

theorem plainItems_eq (xs : List Json) : plainItems xs = xs.map plain := by
  induction xs with
  | nil => rfl
  | cons x rest ih => rw [plainItems, ih, List.map_cons]

theorem plainMembers_eq (ms : List (String × Json)) : plainMembers ms = Entries.mapValues plain ms := by
  induction ms with
  | nil => rfl
  | cons m rest ih =>
    obtain ⟨k, x⟩ := m
    rw [plainMembers, ih]
    rfl

theorem string?_plain (v : Json) : (plain v).string? = v.string? := by
  cases v <;> rfl

/-- Only a type that is written as a text is looked at. -/
theorem get?_retype (distinct : (Entries.keys ms).Nodup)
    (kept : key = "type" → ∀ t, Entries.get? "type" ms ≠ some (.string t)) :
    Entries.get? key (retype ms) = Entries.get? key ms := by
  unfold retype
  split
  · rename_i t written
    have different : "type" ≠ key := fun same => kept same.symm t written
    split
    · rw [Entries.get?_swapErase distinct (Entries.mem_keys written), if_neg different]
    · split
      · rw [Entries.get?_insert, if_neg different]
      · rfl
  · rfl

/-- What becomes of such a type: it goes away, it gets a second one beside it, or it stays. -/
theorem type_retype (distinct : (Entries.keys ms).Nodup) {t : String}
    (written : Entries.get? "type" ms = some (.string t)) : Entries.get? "type" (retype ms) =
      if t = "file" then none
      else if isMarked "x-nullable" ms || isMarked "nullable" ms then
        some (.array [.string t, .string "null"])
      else some (.string t) := by
  unfold retype
  rw [written]
  dsimp only
  split
  · rw [Entries.get?_swapErase distinct (Entries.mem_keys written), if_pos rfl]
  · split
    · rw [Entries.get?_insert, if_pos rfl]
    · exact written

theorem keys_plainMembers (ms : List (String × Json)) :
    Entries.keys (plainMembers ms) = Entries.keys ms := by
  rw [plainMembers_eq, Entries.keys_mapValues]

theorem retype_nodup (distinct : (Entries.keys ms).Nodup) : (Entries.keys (retype ms)).Nodup := by
  unfold retype
  split
  · rename_i t written
    split
    · exact Entries.swapErase_nodup distinct (Entries.mem_keys written)
    · split
      · exact Entries.keys_insert_nodup distinct _ _
      · exact distinct
  · exact distinct

theorem plainMembers_nodup (distinct : (Entries.keys ms).Nodup) : (Entries.keys (plainMembers ms)).Nodup :=
  (keys_plainMembers ms).symm ▸ distinct

theorem plain_nodup (distinct : (Entries.keys ms).Nodup) :
    (Entries.keys (retype (plainMembers ms))).Nodup :=
  retype_nodup (plainMembers_nodup distinct)

/-- Members under another key than that of types are made plain on their own. -/
theorem get?_plain (distinct : (Entries.keys ms).Nodup) (other : key ≠ "type") :
    Entries.get? key (retype (plainMembers ms)) = (Entries.get? key ms).map plain := by
  rw [get?_retype (plainMembers_nodup distinct) fun same => absurd same other, plainMembers_eq,
    Entries.get?_mapValues]

/-- A plain schema refers on only if the schema did. -/
theorem direct_plain (distinct : (Entries.keys ms).Nodup) (direct : Entries.get? "$ref" ms = none) :
    Entries.get? "$ref" (retype (plainMembers ms)) = none := by
  rw [get?_plain distinct (by decide), direct]
  rfl

/-- A member that is no text, or not a type, is made plain on its own. -/
theorem member?_plain (distinct : (Entries.keys ms).Nodup) (found : Entries.get? key ms = some v)
    (kept : key = "type" → v.string? = none) : (plain (.object ms)).member? key = some (plain v) := by
  have listed : Entries.get? key (plainMembers ms) = some (plain v) := by
    rw [plainMembers_eq, Entries.get?_mapValues, found]
    rfl
  rw [plain, Json.member?, get?_retype (plainMembers_nodup distinct), listed]
  · rintro rfl t written
    have text := congrArg Json.string? (Option.some.inj (listed.symm.trans written))
    rw [string?_plain, kept rfl] at text
    cases text

open Pointer

/-- No step goes on from a text. -/
theorem no_text_before (stepped : walk ts v = some w) (whole : w.string? = none) : v.string? = none := by
  cases v with
  | string s =>
    cases ts with
    | nil =>
      cases stepped
      cases whole
    | cons => cases stepped
  | _ => rfl

theorem step_plain (unique : v.KeysUnique) {t : String} (stepped : step t v = some w)
    (whole : w.string? = none) : step t (plain v) = some (plain w) := by
  cases v with
  | array xs =>
    obtain ⟨i, index, listed⟩ := Option.bind_eq_some_iff.mp stepped
    rw [plain, plainItems_eq, step, index, Option.bind_some, List.getElem?_map, listed]
    rfl
  | object ms => exact member?_plain unique.1 stepped fun _ => whole
  | _ => cases stepped

theorem unique_of_step (unique : v.KeysUnique) {t : String} (stepped : step t v = some w) :
    w.KeysUnique := by
  have found : walk [t] v = some w := by
    rw [walk, stepped]
    rfl
  exact unique.walk found

theorem walk_plain (unique : v.KeysUnique) (found : walk ts v = some w) (whole : w.string? = none) :
    walk ts (plain v) = some (plain w) := by
  induction ts generalizing v with
  | nil =>
    cases found
    rfl
  | cons t rest ih =>
    obtain ⟨x, first, later⟩ := Option.bind_eq_some_iff.mp found
    rw [walk, step_plain unique first (no_text_before later whole), Option.bind_some,
      ih (unique_of_step unique first) later]

/-- No way through two texts ends at an object. -/
theorem no_object_in_texts {t u : String} : walk ts (.array [.string t, .string u]) ≠ some (.object ms) := by
  intro found
  cases ts with
  | nil => cases found
  | cons first rest =>
    obtain ⟨x, stepped, later⟩ := Option.bind_eq_some_iff.mp found
    obtain ⟨i, _, listed⟩ := Option.bind_eq_some_iff.mp stepped
    have text : x = .string t ∨ x = .string u := by simpa using List.mem_of_getElem? listed
    rcases text with rfl | rfl <;> cases no_text_before later rfl

/-- A step in a plain value that a way to an object starts with was there before. -/
theorem step_of_plain (unique : v.KeysUnique) {t : String} {y : Json} (stepped : step t (plain v) = some y)
    (later : walk ts y = some (.object ms)) : ∃ x, step t v = some x ∧ plain x = y := by
  cases v with
  | array xs =>
    rw [plain, plainItems_eq] at stepped
    obtain ⟨i, index, made⟩ := Option.bind_eq_some_iff.mp stepped
    rw [List.getElem?_map] at made
    obtain ⟨x, listed, rfl⟩ := Option.map_eq_some_iff.mp made
    exact ⟨x, Option.bind_eq_some_iff.mpr ⟨i, index, listed⟩, rfl⟩
  | object es =>
    have distinct := plainMembers_nodup unique.1
    have listed : Entries.get? (unescape t) (plainMembers es) = some y := by
      rw [plain, step] at stepped
      by_cases typed : ∃ u, unescape t = "type" ∧ Entries.get? "type" (plainMembers es) = some (.string u)
      · obtain ⟨u, same, written⟩ := typed
        rw [same, type_retype distinct written] at stepped
        split at stepped
        · cases stepped
        · split at stepped
          · cases stepped
            exact absurd later no_object_in_texts
          · rw [same, written, stepped]
      · rw [← stepped]
        exact (get?_retype distinct fun same u written => typed ⟨u, same, written⟩).symm
    rw [plainMembers_eq, Entries.get?_mapValues] at listed
    exact Option.map_eq_some_iff.mp listed
  | _ => cases stepped

theorem walk_of_plain (unique : v.KeysUnique) (found : walk ts (plain v) = some (.object ms)) :
    ∃ w, walk ts v = some w ∧ plain w = .object ms := by
  induction ts generalizing v with
  | nil => exact ⟨v, rfl, Option.some.inj found⟩
  | cons t rest ih =>
    obtain ⟨y, first, later⟩ := Option.bind_eq_some_iff.mp found
    obtain ⟨x, stepped, rfl⟩ := step_of_plain unique first later
    obtain ⟨w, ends, same⟩ := ih (unique_of_step unique stepped) later
    exact ⟨w, by rw [walk, stepped, Option.bind_some, ends], same⟩

theorem walk_rooted (aside : Aside ts) (document : Json) (p : Pointer) :
    walk ts (rooted document p) = walk ts (plain document) := by
  unfold rooted
  split
  · rename_i ms made
    rw [made]
    split
    · rfl
    · cases ts with
      | nil => cases aside
      | cons t rest =>
        have different : "$ref" ≠ unescape t := Ne.symm aside
        rw [walk, walk, step, step, Entries.get?_insert, if_neg different]
  · rfl

/-- References that are texts are what they were. -/
theorem reference_plain (unique : v.KeysUnique) {reference : String} :
    (plain v).member? "$ref" = some (.string reference) ↔ v.member? "$ref" = some (.string reference) := by
  cases v with
  | object ms =>
    rw [plain, Json.member?, Json.member?, get?_plain unique.1 (by decide), Option.map_eq_some_iff]
    constructor
    · rintro ⟨x, listed, same⟩
      have text := congrArg Json.string? same
      rw [string?_plain] at text
      rw [listed, Json.string?_eq_some.mp text]
    · intro listed
      exact ⟨_, listed, rfl⟩
  | _ => exact Iff.rfl

end Validation.PlainSchema

namespace Validation.Reference
variable {document v w : Json} {reference pointer : String} {ts : List String} {cs : List Char}

/-- A character that stands in no index. -/
theorem indexOf?_none {c : Char} {token : String} (inside : c ∈ token.toList) (other : c.isDigit = false)
    (unsigned : c ≠ '+') : Pointer.indexOf? token = none := by
  unfold Pointer.indexOf?
  refine if_pos (.inr fun all => ?_)
  rw [List.all_eq_true] at all
  refine absurd (all c ?_) (by simp [other])
  split
  · rename_i rest written
    rw [written] at inside
    exact (List.mem_cons.mp inside).resolve_left unsigned
  · exact inside

theorem unescapeChars_tilde (tilde : '~' ∈ cs) :
    '/' ∈ Pointer.unescapeChars cs ∨ '~' ∈ Pointer.unescapeChars cs := by
  fun_induction Pointer.unescapeChars cs with
  | case1 => exact .inl List.mem_cons_self
  | case2 => exact .inr List.mem_cons_self
  | case3 c rest _ _ ih =>
    rcases List.mem_cons.mp tilde with rfl | later
    · exact .inr List.mem_cons_self
    · exact (ih later).imp (List.mem_cons_of_mem c) (List.mem_cons_of_mem c)
  | case4 => cases tilde

/-- A token that has to be decoded is no index, neither before nor after. -/
theorem indexOf?_unescape (token : String) :
    Pointer.indexOf? (Pointer.unescape token) = Pointer.indexOf? token := by
  by_cases tilde : '~' ∈ token.toList
  · rw [indexOf?_none tilde (by decide) (by decide)]
    have decoded : (Pointer.unescape token).toList = Pointer.unescapeChars token.toList :=
      String.toList_ofList ..
    rcases unescapeChars_tilde tilde with inside | inside
    · exact indexOf?_none (decoded ▸ inside) (by decide) (by decide)
    · exact indexOf?_none (decoded ▸ inside) (by decide) (by decide)
  · rw [Pointer.unescape, Pointer.unescapeChars_plain tilde, String.ofList_toList]

/-- Rules are looked for on the way that pointers take. -/
theorem walk_eq_ok : walk pointer ts v = .ok w ↔ Pointer.walk ts v = some w := by
  induction ts generalizing v with
  | nil => simp [walk, Pointer.walk]
  | cons t rest ih =>
    cases v with
    | array xs =>
      rw [walk, Pointer.walk, Pointer.step, indexOf?_unescape]
      cases Pointer.indexOf? t with
      | none => simp
      | some i =>
        rw [Option.bind_some]
        cases found : xs[i]? with
        | none => simp [found]
        | some x => simp [found, ih]
    | _ =>
      rw [walk, Pointer.walk]
      · cases Pointer.step t _ with
        | none => simp
        | some x => exact ih
      · simp

/-- The tokens of a reference, percent signs decoded. -/
def way? (reference : String) : Option (List String) :=
  match reference.toList.drop 1 with
  | [] => some []
  | '/' :: rest => some (Pointer.ofParts (decode rest)).tokens
  | _ => none

theorem resolve_eq_ok : resolve document reference = .ok v ↔
    fault? reference = none ∧ ∃ ts, way? reference = some ts ∧ Pointer.walk ts document = some v := by
  unfold resolve way?
  cases fault? reference with
  | some f => simp
  | none =>
    generalize reference.toList.drop 1 = cs
    dsimp only
    split
    · simp [Pointer.walk]
    · simp [walk_eq_ok]
    · simp_all

end Validation.Reference

namespace Spec

open Schema Validation

variable {document v : Json} {options : Options} {formats : Format.Registry} {s : Spec}
  {naming : Naming} {order : List Pointer} {id : Id}

/-- What a node was read from is no text. -/
theorem ReadAs.schema_raw (h : s.ReadAs document naming order) (inside : id < s.nodes.size) :
    (s.node id).pointer.find? document = some (s.node id).raw ∧ (s.node id).raw.string? = none := by
  rw [h.size_eq] at inside
  have provided := provided_of_numbered h.numbered (List.getElem_mem inside)
  have found : order[id].find? document = some (nodeAt document naming order order[id]).raw :=
    nodeAt_raw provided
  rw [← h.node_eq inside, ← h.pointer_eq inside] at found
  refine ⟨found, ?_⟩
  obtain ⟨raw, there, needed⟩ := provided
  rw [← h.pointer_eq inside, found] at there
  cases there
  cases written : (s.node id).raw with
  | string t =>
    rw [written] at needed
    obtain ⟨_, failed, _⟩ := needed _ (List.mem_singleton_self _)
    cases failed
  | _ => rfl

theorem ReadAs.raw_distinct (h : s.ReadAs document naming order) (unique : document.KeysUnique)
    (inside : id < s.nodes.size) {ms : Members} (raw : (s.node id).raw = .object ms) :
    (Entries.keys ms).Nodup := by
  have found := (h.schema_raw inside).1
  rw [raw] at found
  exact (unique.find? found).1

theorem object_of_member {key : String} (found : document.member? key = some v) :
    ∃ ms, document = .object ms := by
  cases document with
  | object ms => exact ⟨ms, rfl⟩
  | _ => cases found

theorem object_of_root {r : Pointer} (root : r ∈ roots document) : ∃ ms, document = .object ms := by
  rcases List.mem_append.mp root with defined | listed
  · obtain ⟨⟨p, key, v⟩, member, rfl⟩ := List.mem_map.mp defined
    obtain ⟨c, container, ms, found, _⟩ := mem_definitions.mp member
    rcases List.mem_cons.mp container with rfl | container
    · rw [find?_key (by decide) (by decide) (by decide)] at found
      exact object_of_member found
    · rw [List.mem_singleton.mp container, find?_schemas] at found
      obtain ⟨v, above, _⟩ := Option.bind_eq_some_iff.mp found
      exact object_of_member above
  · cases found : document.member? "paths" with
    | none =>
      rw [found] at listed
      cases listed
    | some paths => exact object_of_member found

theorem ReadAs.object (h : s.ReadAs document naming order) (inside : id < s.nodes.size) :
    ∃ ms, document = .object ms := by
  rw [h.size_eq] at inside
  obtain ⟨r, root, _⟩ := (mem_numbering h.numbered).mp (List.getElem_mem inside)
  exact object_of_root root

section Kept
variable (h : s.ReadAs document naming order) (unique : document.KeysUnique) {q : Id}
include h unique

theorem ReadAs.walk_kept {ts : List String} (aside : Pointer.Aside ts)
    (found : Pointer.walk ts document = some v) (whole : v.string? = none) :
    Pointer.walk ts (s.plainDocument q) = some (PlainSchema.plain v) := by
  rw [plainDocument, h.same, PlainSchema.walk_rooted aside]
  exact PlainSchema.walk_plain unique found whole

theorem ReadAs.find?_kept {p : Pointer} (inner : p.Inner) (found : p.find? document = some v)
    (whole : v.string? = none) : p.find? (s.plainDocument q) = some (PlainSchema.plain v) :=
  h.walk_kept unique inner found whole

theorem ReadAs.reference_kept {place : Pointer} {reference : String} (inner : place.Inner) :
    (place.find? (s.plainDocument q)).bind (Json.member? "$ref") = some (.string reference) ↔
      (place.find? document).bind (Json.member? "$ref") = some (.string reference) := by
  constructor
  · intro found
    obtain ⟨w, there, referring⟩ := Option.bind_eq_some_iff.mp found
    obtain ⟨ms, rfl⟩ := object_of_member referring
    rw [plainDocument, h.same, Pointer.find?, PlainSchema.walk_rooted inner] at there
    obtain ⟨v, here, same⟩ := PlainSchema.walk_of_plain unique there
    rw [← same] at referring
    exact Option.bind_eq_some_iff.mpr
      ⟨v, here, (PlainSchema.reference_plain (unique.walk here)).mp referring⟩
  · intro found
    obtain ⟨v, here, referring⟩ := Option.bind_eq_some_iff.mp found
    obtain ⟨ms, rfl⟩ := object_of_member referring
    exact Option.bind_eq_some_iff.mpr ⟨_, h.find?_kept unique inner here rfl,
      (PlainSchema.reference_plain (unique.find? here)).mpr referring⟩

omit unique in
/-- The reference at the root leads to the schema. -/
theorem ReadAs.root_reference (inside : q < s.nodes.size) (other : (s.node q).pointer ≠ .root) :
    (s.plainDocument q).member? "$ref" = some (.string (s.node q).pointer.label) ∧
      Schema.target .root (.string (s.node q).pointer.label) = .ok (s.node q).pointer := by
  obtain ⟨ms, rfl⟩ := h.object inside
  have tokens : (s.node q).pointer.tokens.isEmpty = false := by
    rw [List.isEmpty_eq_false_iff]
    intro empty
    exact other (congrArg Pointer.mk empty)
  have plain : (s.node q).pointer.Plain := by
    rw [h.size_eq] at inside
    rw [h.pointer_eq inside]
    exact h.plain inside
  constructor
  · rw [plainDocument, h.same, PlainSchema.rooted, PlainSchema.plain]
    dsimp only
    rw [tokens, if_neg Bool.false_ne_true, Json.member?, Entries.get?_insert, if_pos rfl]
  · refine target_eq_ok.mpr ⟨_, _, rfl, ?_, Pointer.ofChars?_text plain⟩
    rw [Pointer.label, String.toList_append]
    rfl

end Kept

/-- In the document that rules are read from, every place of a schema holds the plain form of the schema,
and every reference leads to the plain form of what it led to; what the rules read at a reference is
plain too. -/
theorem references_kept (built : build document options formats = .ok s) (unique : document.KeysUnique)
    (q : Id) :
    (∀ id < s.nodes.size, (s.node id).pointer.Inner → (s.node id).pointer.find? (s.plainDocument q) =
      some (PlainSchema.plain (s.node id).raw)) ∧
    (∀ (place : Pointer) reference, place.Inner →
      ((place.find? (s.plainDocument q)).bind (Json.member? "$ref") = some (.string reference) ↔
        (place.find? document).bind (Json.member? "$ref") = some (.string reference))) ∧
    (∀ (place target : Pointer) reference v, target.Inner → Schema.target place reference = .ok target →
      target.find? document = some v → v.string? = none →
      target.find? (s.plainDocument q) = some (PlainSchema.plain v)) ∧
    (∀ reference ts v, Reference.way? reference = some ts → Pointer.Aside ts →
      Reference.resolve document reference = .ok v → v.string? = none →
      Reference.resolve (s.plainDocument q) reference = .ok (PlainSchema.plain v)) ∧
    (q < s.nodes.size → (s.node q).pointer = .root ∨ ∃ reference,
      (s.plainDocument q).member? "$ref" = some reference ∧
        Schema.target .root reference = .ok (s.node q).pointer) := by
  obtain ⟨naming, order, h⟩ := read_as built
  refine ⟨fun id inside inner => ?_, fun place reference inner => h.reference_kept unique inner,
    fun place target reference v inner _ found whole => h.find?_kept unique inner found whole,
    fun reference ts v way aside resolved whole => ?_, fun inside => ?_⟩
  · obtain ⟨found, whole⟩ := h.schema_raw inside
    exact h.find?_kept unique inner found whole
  · obtain ⟨written, ts', way', found⟩ := Reference.resolve_eq_ok.mp resolved
    obtain rfl := Option.some.inj (way.symm.trans way')
    exact Reference.resolve_eq_ok.mpr ⟨written, ts, way, h.walk_kept unique aside found whole⟩
  · by_cases root : (s.node q).pointer = .root
    · exact .inl root
    · exact .inr ⟨_, h.root_reference inside root⟩

def patient : Json := .object [("type", .string "object"),
  ("properties", .object [("scan", .object [("type", .string "file")])])]

/-- Visits have a property of the name that types have, and it may be null. -/
def clinic : Json := .object [
  ("definitions", .object [
    ("Visit", .object [("type", .string "object"), ("x-nullable", .bool true),
      ("properties", .object [
        ("type", .object [("type", .string "string"), ("nullable", .bool true)]),
        ("patient", .object [("$ref", .string "#/definitions/Patient")])])]),
    ("Patient", patient)])]

theorem clinic_unique : clinic.KeysUnique := by
  simp [clinic, patient, Json.KeysUnique, Json.KeysUniqueMembers, Entries.keys]

theorem references_kept_in_clinic : ∃ s, build clinic .standard .standard = .ok s ∧ clinic.KeysUnique ∧
    s.nodes.size = 5 ∧ ∀ q, (∀ id < s.nodes.size, (s.node id).pointer.find? (s.plainDocument q) =
      some (PlainSchema.plain (s.node id).raw)) ∧
      Reference.resolve (s.plainDocument q) "#/definitions/Patient" = .ok (PlainSchema.plain patient) := by
  have made : (build clinic .standard .standard).toOption.any (fun s => decide
      (s.nodes.size = 5 ∧ ∀ id < s.nodes.size, (s.node id).pointer.Inner)) = true := by
    decide +kernel
  have way : Reference.way? "#/definitions/Patient" = some ["definitions", "Patient"] := by
    decide +kernel
  have resolved : Reference.resolve clinic "#/definitions/Patient" = .ok patient :=
    Reference.resolve_eq_ok.mpr ⟨by decide +kernel, _, way, rfl⟩
  obtain ⟨s, built, made⟩ := Except.exists_of_any made
  obtain ⟨size, inner⟩ := of_decide_eq_true made
  refine ⟨s, built, clinic_unique, size, fun q => ?_⟩
  obtain ⟨nodes, _, _, rules, _⟩ := references_kept built clinic_unique q
  exact ⟨fun id inside => nodes id inside (inner id inside),
    rules _ _ patient way (by decide) resolved rfl⟩

end Spec
end ApiPayload
