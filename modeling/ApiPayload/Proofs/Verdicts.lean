import ApiPayload.Proofs.Commands
import ApiPayload.Proofs.TagChecks
import ApiPayload.Proofs.Validations

/-
Verdicts for programs. Asked for JSON, a validation answers with one object on one line, whose `valid` says whether
the command exits with zero. Where the payload cannot be read, or the library refuses the document, there is no answer
but only an error and an exit code; and there is none where a check never ends.
-/
namespace ApiPayload

open Schema

namespace Json

section Lines
variable {xs : List Json} {ms : List (String × Json)}

/-- Printed without a line break. -/
def OneLine (v : Json) : Prop := '\n' ∉ v.chars

theorem escapeChar_oneLine (c : Char) : '\n' ∉ escapeChar c := by
  have control : ∀ n < 32, '\n' ∉ ['\\', 'u', '0', '0', hexDigit (n / 16), hexDigit (n % 16)] := by decide
  by_cases broken : c = '\n'
  · subst broken
    decide
  · unfold escapeChar
    iterate 6
      split
      · decide
    split
    · rename_i low
      exact control c.toNat low
    · exact List.mem_singleton.not.mpr (Ne.symm broken)

theorem bool_oneLine (b : Bool) : (bool b).OneLine := by
  cases b <;> simp [OneLine, chars]

theorem quoted_oneLine (s : String) : '\n' ∉ quoted s := by
  intro broken
  rcases List.mem_cons.mp broken with quote | broken
  · cases quote
  · rcases List.mem_append.mp broken with inside | quote
    · obtain ⟨c, _, inside⟩ := List.mem_flatMap.mp inside
      exact escapeChar_oneLine c inside
    · cases List.mem_singleton.mp quote

theorem charsItems_oneLine (each : ∀ x ∈ xs, x.OneLine) : '\n' ∉ charsItems xs := by
  induction xs with
  | nil => exact List.not_mem_nil
  | cons x rest ih =>
    obtain ⟨first, later⟩ := List.forall_mem_cons.mp each
    cases rest with
    | nil => exact first
    | cons y rest =>
      rw [charsItems, List.mem_append, List.mem_cons]
      · exact not_or.mpr ⟨first, not_or.mpr ⟨by decide, ih later⟩⟩
      · exact nofun

theorem charsMembers_oneLine (each : ∀ m ∈ ms, m.2.OneLine) : '\n' ∉ charsMembers ms := by
  induction ms with
  | nil => exact List.not_mem_nil
  | cons m rest ih =>
    obtain ⟨key, x⟩ := m
    obtain ⟨first, later⟩ := List.forall_mem_cons.mp each
    have alone : '\n' ∉ quoted key ++ ':' :: x.chars := by
      rw [List.mem_append, List.mem_cons]
      exact not_or.mpr ⟨quoted_oneLine key, not_or.mpr ⟨by decide, first⟩⟩
    cases rest with
    | nil => exact alone
    | cons m rest =>
      have split : charsMembers ((key, x) :: m :: rest) =
          (quoted key ++ ':' :: x.chars) ++ ',' :: charsMembers (m :: rest) := by
        simp [charsMembers]
      rw [split, List.mem_append, List.mem_cons]
      exact not_or.mpr ⟨alone, not_or.mpr ⟨by decide, ih later⟩⟩

theorem array_oneLine (each : ∀ x ∈ xs, x.OneLine) : (array xs).OneLine := by
  rw [OneLine, chars, List.mem_cons, List.mem_append]
  exact not_or.mpr ⟨by decide, not_or.mpr ⟨charsItems_oneLine each, by decide⟩⟩

theorem object_oneLine (each : ∀ m ∈ ms, m.2.OneLine) : (object ms).OneLine := by
  rw [OneLine, chars, List.mem_cons, List.mem_append]
  exact not_or.mpr ⟨by decide, not_or.mpr ⟨charsMembers_oneLine each, by decide⟩⟩

end Lines

end Json

namespace Cli

/-- One object on one line of the output, which says whether the exit code is zero. -/
structure Answers (o : Outcome) (ms : Members) : Prop where
  printed : o.out = [(Json.object ms).compact]
  line : (Json.object ms).OneLine
  read : Json.read (unlines o.out) = .ok (.object ms)
  valid : Entries.get? "valid" ms = some (.bool (decide (o.code = 0)))

section Verdict
variable {o : Outcome} {valid : Bool} {more : Members}

/-- A verdict is an answer whatever faults it names. -/
theorem answers_verdict (out : o.out = [verdict valid more]) (told : valid = decide (o.code = 0))
    (unique : (Json.object (("valid", .bool valid) :: more)).KeysUnique)
    (legible : (Json.object (("valid", .bool valid) :: more)).Legible Json.Reader.maxDepth)
    (line : ∀ m ∈ more, m.2.OneLine) : Answers o (("valid", .bool valid) :: more) where
  printed := out
  line := Json.object_oneLine (List.forall_mem_cons.mpr ⟨Json.bool_oneLine valid, line⟩)
  read := by
    rw [out]
    exact (congrArg Json.read String.empty_append).trans (Json.read_compact unique legible)
  valid := by rw [told]; rfl

theorem answers_plain (out : o.out = [verdict valid []]) (told : valid = decide (o.code = 0)) :
    Answers o [("valid", .bool valid)] := by
  refine answers_verdict out told ?_ ?_ nofun
  · simp [Json.KeysUnique, Json.KeysUniqueMembers, Entries.keys]
  · simp [Json.Legible, Json.LegibleMembers, Json.Reader.maxDepth]

theorem answers_faults {faults : List PayloadFault}
    (out : o.out = [verdict valid [("errors", .array (faults.map faultJson))]])
    (told : valid = decide (o.code = 0)) :
    Answers o [("valid", .bool valid), ("errors", .array (faults.map faultJson))] := by
  have one : ∀ f : PayloadFault, (faultJson f).KeysUnique ∧ (faultJson f).Legible 125 ∧ (faultJson f).OneLine := by
    intro f
    refine ⟨?_, ?_, Json.object_oneLine fun m member => ?_⟩
    · simp [faultJson, Json.KeysUnique, Json.KeysUniqueMembers, Entries.keys]
    · simp [faultJson, Json.Legible, Json.LegibleMembers]
    · rcases List.mem_cons.mp member with rfl | member
      · exact Json.quoted_oneLine _
      · obtain rfl := List.mem_singleton.mp member
        exact Json.quoted_oneLine _
  refine answers_verdict out told ?_ ?_ (List.forall_mem_singleton.mpr ?_)
  · have items := Json.keysUniqueItems_iff.mpr (List.forall_mem_map.mpr fun f (_ : f ∈ faults) => (one f).1)
    simpa [Json.KeysUnique, Json.KeysUniqueMembers, Entries.keys] using items
  · have items := Json.legibleItems_iff.mpr (List.forall_mem_map.mpr fun f (_ : f ∈ faults) => (one f).2.1)
    simpa [Json.Legible, Json.LegibleMembers, Json.Reader.maxDepth] using items
  · exact Json.array_oneLine (List.forall_mem_map.mpr fun f _ => (one f).2.2)

end Verdict

section Judging
variable {library : Library} {files : Files} {t : Target} {o : Outcome} {s : Spec} {id : Id} {v : Json}

/-- Schema and payload are there, and the library has a check for them, but a check never ends: the library's, or
that of the tags, which has no result with any fuel. -/
structure Endless (library : Library) (files : Files) (t : Target) (s : Spec) (id : Id) (v : Json) : Prop where
  loaded : loadTarget files t = .ok (s, id)
  given : loadPayload files t = .ok v
  never : ∃ check, s.checkBy library id = .ok check ∧
    (check v = none ∨ ∀ fuel, Validation.checkTags s fuel .root id v = none)

/-- The schema is there, but the payload cannot be read, the library refuses the document, or the check of the
payload never ends. -/
inductive Unanswered (library : Library) (files : Files) (t : Target) : Prop where
  | payload {s : Spec} {id : Id} {o : Outcome} (loaded : loadTarget files t = .ok (s, id))
      (failed : loadPayload files t = .error o)
  | refused {s : Spec} {id : Id} {v : Json} {e : SpecError} (loaded : loadTarget files t = .ok (s, id))
      (given : loadPayload files t = .ok v) (failed : s.checkBy library id = .error e)
  | endless {s : Spec} {id : Id} {v : Json} (endless : Endless library files t s id v)

/-- All that can come of a validation for programs. -/
inductive Judged (library : Library) (files : Files) (t : Target) : Outcome → Prop where
  | unloaded {o : Outcome} (failed : loadTarget files t = .error o) : Judged library files t (markInvalid true o)
  | ungiven {s : Spec} {id : Id} {o : Outcome} (loaded : loadTarget files t = .ok (s, id))
      (failed : loadPayload files t = .error o) : Judged library files t o
  | refused {s : Spec} {id : Id} {v : Json} {e : SpecError} (loaded : loadTarget files t = .ok (s, id))
      (given : loadPayload files t = .ok v) (failed : s.checkBy library id = .error e) :
      Judged library files t ⟨e.exitCode, [], ["Error: " ++ e.message]⟩
  | endless {s : Spec} {id : Id} {v : Json} {e : SpecError} (endless : Endless library files t s id v) :
      Judged library files t ⟨e.exitCode, [], ["Error: " ++ e.message]⟩
  | valid {s : Spec} {id : Id} {v : Json} (loaded : loadTarget files t = .ok (s, id))
      (given : loadPayload files t = .ok v) (valid : s.validateBy library id v = .ok ()) :
      Judged library files t ⟨0, [verdict true []], []⟩
  | invalid {s : Spec} {id : Id} {v : Json} {faults : List PayloadFault}
      (loaded : loadTarget files t = .ok (s, id)) (given : loadPayload files t = .ok v)
      (invalid : s.validateBy library id v = .error (.invalid faults)) :
      Judged library files t ⟨1, [verdict false [("errors", .array (faults.map faultJson))]], []⟩

/-- Without a verdict the library refuses the document or the check never ends. -/
theorem refused_or_endless {e : SpecError} (loaded : loadTarget files t = .ok (s, id))
    (given : loadPayload files t = .ok v) (silent : s.validateBy library id v = .error (.spec e)) :
    s.checkBy library id = .error e ∨ Endless library files t s id v := by
  cases checked : s.checkBy library id with
  | error failed =>
    rw [Spec.validateBy_refused checked] at silent
    cases silent
    exact .inl rfl
  | ok check =>
    obtain ⟨document, options, _, built⟩ := built_of_loadTarget loaded
    obtain ⟨naming, order, h⟩ := Spec.read_as built
    refine .inr ⟨loaded, given, check, checked, ?_⟩
    exact (Spec.faults?_eq_none.mp ((Spec.validateBy_spec checked).mp silent).1).imp_right
      h.tagFaults?_eq_none.mp

theorem Endless.silent (endless : Endless library files t s id v) :
    ∃ e, s.validateBy library id v = .error (.spec e) := by
  obtain ⟨check, checked, never⟩ := endless.never
  refine ⟨_, (Spec.validateBy_spec checked).mpr ⟨Spec.faults?_eq_none.mpr (never.imp_right fun none => ?_), rfl⟩⟩
  exact none _

theorem runBy_judged (library : Library) (files : Files) (t : Target) :
    Judged library files t (runBy library files (.validate t true)) := by
  cases loaded : loadTarget files t with
  | error o =>
    have result : runBy library files (.validate t true) = markInvalid true o := by
      simp only [runBy, runValidate, loaded]
      rfl
    exact result ▸ .unloaded loaded
  | ok target =>
    obtain ⟨s, id⟩ := target
    cases given : loadPayload files t with
    | error o =>
      have result : runBy library files (.validate t true) = o := by
        simp only [runBy, runValidate, loaded, given]
        rfl
      exact result ▸ .ungiven loaded given
    | ok v =>
      cases judged : s.validateBy library id v with
      | ok done =>
        have result : runBy library files (.validate t true) = ⟨0, [verdict true []], []⟩ := by
          simp only [runBy, runValidate, loaded, given, Except.mapError, bind, Except.bind, judged]
          rfl
        exact result ▸ .valid loaded given judged
      | error e =>
        cases e with
        | spec e =>
          have result : runBy library files (.validate t true) =
              ⟨e.exitCode, [], ["Error: " ++ e.message]⟩ := by
            simp only [runBy, runValidate, loaded, given, Except.mapError, bind, Except.bind, judged]
            rfl
          rw [result]
          rcases refused_or_endless loaded given judged with failed | endless
          · exact .refused loaded given failed
          · exact .endless endless
        | invalid faults =>
          have result : runBy library files (.validate t true) =
              ⟨1, [verdict false [("errors", .array (faults.map faultJson))]], []⟩ := by
            simp only [runBy, runValidate, loaded, given, Except.mapError, bind, Except.bind, judged]
            rfl
          exact result ▸ .invalid loaded given judged

theorem not_answered_of_silent (silent : o.out = []) : ¬ ∃ ms, Answers o ms := by
  rintro ⟨ms, answers⟩
  rw [answers.printed] at silent
  cases silent

theorem Unanswered.not_judged (unanswered : Unanswered library files t)
    (loaded : loadTarget files t = .ok (s, id)) (given : loadPayload files t = .ok v) :
    ∃ e, s.validateBy library id v = .error (.spec e) := by
  cases unanswered with
  | payload _ failed =>
    rw [given] at failed
    cases failed
  | refused loaded' _ failed =>
    obtain ⟨rfl, rfl⟩ := Prod.mk.inj (Except.ok.inj (loaded.symm.trans loaded'))
    exact ⟨_, Spec.validateBy_refused failed v⟩
  | endless endless =>
    obtain ⟨rfl, rfl⟩ := Prod.mk.inj (Except.ok.inj (loaded.symm.trans endless.loaded))
    obtain rfl := Except.ok.inj (given.symm.trans endless.given)
    exact endless.silent

/-- Either there is an answer, or nothing is printed: then a line of error is all there is, if there is an end. -/
theorem Judged.answered_or_withheld (judged : Judged library files t o) :
    ((∃ ms, Answers o ms) ∧ ¬ Unanswered library files t) ∨
      (Unanswered library files t ∧ o.out = [] ∧ o.err.length = 1 ∧ o.code ≠ 0) := by
  have nonzero : ∀ e : SpecError, e.exitCode ≠ 0 := by
    intro e
    cases e <;> exact nofun
  cases judged with
  | unloaded failed =>
    obtain ⟨code, line, nonzero, rfl⟩ := fails_loadTarget files t _ failed
    refine .inl ⟨⟨_, answers_plain rfl (decide_eq_false nonzero).symm⟩, fun unanswered => ?_⟩
    cases unanswered with
    | payload loaded | refused loaded => exact nomatch failed.symm.trans loaded
    | endless endless => exact nomatch failed.symm.trans endless.loaded
  | ungiven loaded failed =>
    obtain ⟨code, line, nonzero, rfl⟩ := fails_orFail _ _ _ failed
    exact .inr ⟨.payload loaded failed, rfl, rfl, nonzero⟩
  | refused loaded given failed => exact .inr ⟨.refused loaded given failed, rfl, rfl, nonzero _⟩
  | endless endless => exact .inr ⟨.endless endless, rfl, rfl, nonzero _⟩
  | valid loaded given valid =>
    refine .inl ⟨⟨_, answers_plain rfl rfl⟩, fun unanswered => ?_⟩
    obtain ⟨e, unread⟩ := unanswered.not_judged loaded given
    exact nomatch valid.symm.trans unread
  | invalid loaded given invalid =>
    refine .inl ⟨⟨_, answers_faults rfl rfl⟩, fun unanswered => ?_⟩
    obtain ⟨e, unread⟩ := unanswered.not_judged loaded given
    exact nomatch invalid.symm.trans unread

theorem withheld (unanswered : Unanswered library files t) :
    (runBy library files (.validate t true)).out = [] ∧
      (runBy library files (.validate t true)).err.length = 1 ∧
      (runBy library files (.validate t true)).code ≠ 0 := by
  rcases (runBy_judged library files t).answered_or_withheld with ⟨_, answered⟩ | ⟨_, silent⟩
  · exact absurd unanswered answered
  · exact silent

end Judging

theorem loadPayload_rex (document : Json) : loadPayload (shelf document rex) petTarget = .ok rex := by
  refine loadPayload_shelf document ?_ ?_
  · simp [rex, Json.KeysUnique, Json.KeysUniqueMembers, Entries.keys]
  · simp [rex, Json.Legible, Json.LegibleMembers, Json.Reader.maxDepth]

/-- The schema of pets with a name is there with its rules, whether or not a payload is. -/
theorem namedPets_loaded : ∃ s id, loadTarget (alone namedPets) petTarget = .ok (s, id) ∧
    loadTarget (shelf namedPets rex) petTarget = .ok (s, id) ∧ s.validate id rex = .ok () := by
  have made : (Spec.build namedPets .standard .standard).toOption.any (fun s =>
      (s.resolve "Pet").toOption.any fun id => (s.validate id rex).isOk) = true := by
    decide +kernel
  obtain ⟨s, built, made⟩ := Except.exists_of_any made
  obtain ⟨id, named, valid⟩ := Except.exists_of_any made
  have unique : namedPets.KeysUnique := by
    simp [namedPets, Json.KeysUnique, Json.KeysUniqueMembers, Entries.keys]
  have legible : namedPets.Legible Json.Reader.maxDepth := by
    simp [namedPets, Json.Legible, Json.LegibleMembers, Json.Reader.maxDepth]
  exact ⟨s, id, loadTarget_alone unique legible built named, loadTarget_shelf rex unique legible built named,
    (Except.exists_of_isOk valid).choose_spec⟩

/-- Asked for JSON, a validation of any payload by any schema in any files answers: one JSON object on one line is
all it prints, and the member `valid` of it says whether the exit code is zero. The exceptions are a payload that
cannot be read, a document that the library of schemas refuses and a check that never ends. There nothing is
printed, and where the check ends, a line of error and an exit code other than zero are all there is. The law
holds for every library, that of draft 4 included, and with or without a client for networks. -/
theorem verdict_printed (library : Library) (files : Files) (t : Target) :
    ((∃ ms, Answers (runBy library files (.validate t true)) ms) ↔ ¬ Unanswered library files t) ∧
    (Unanswered library files t → (runBy library files (.validate t true)).out = []) ∧
    (Unanswered library files t → (¬ ∃ s id v, Endless library files t s id v) →
      (runBy library files (.validate t true)).err.length = 1 ∧
        (runBy library files (.validate t true)).code ≠ 0) := by
  refine ⟨?_, fun unanswered => (withheld unanswered).1, fun unanswered _ => (withheld unanswered).2⟩
  rcases (runBy_judged library files t).answered_or_withheld with ⟨answered, all⟩ | ⟨unanswered, silent, _⟩
  · exact iff_of_true answered all
  · exact iff_of_false (not_answered_of_silent silent) (not_not_intro unanswered)

/-- Pets with a bird that may be an egg. Eggs and hens are of each other's kind, so tags can lead from the one to the
other and back. -/
def nestedPets : Json :=
  .object [("definitions", .object [
    ("Egg", .object [("allOf", .array [.object [("$ref", .string "#/definitions/Hen")]]),
      ("discriminator", .string "laid")]),
    ("Hen", .object [("allOf", .array [.object [("$ref", .string "#/definitions/Egg")]]),
      ("discriminator", .string "hatched")]),
    ("Pet", .object [("type", .string "object"), ("properties", .object [
      ("bird", .object [("type", .string "object"), ("x-model", .string "Egg")])])])])]

/-- An egg that is laid as a hen, which is hatched as an egg. -/
def brood : Json :=
  .object [("bird", .object [("laid", .string "Hen"), ("hatched", .string "Egg")])]

/-- The rules have nothing against the brood, but the check of its tags never ends. -/
theorem brood_endless : ∃ s id, Endless Validation.draft4 (shelf nestedPets brood) petTarget s id brood := by
  have made : (Spec.build nestedPets .standard .standard).toOption.any (fun s =>
      (s.resolve "Pet").toOption.any fun id => (s.rules id).isOk &&
        (Validation.tagFaults? s id brood).isNone) = true := by
    decide +kernel
  obtain ⟨s, built, made⟩ := Except.exists_of_any made
  obtain ⟨id, named, made⟩ := Except.exists_of_any made
  obtain ⟨ruled, never⟩ := Bool.and_eq_true_iff.mp made
  obtain ⟨r, read⟩ := Except.exists_of_isOk ruled
  obtain ⟨naming, order, h⟩ := Spec.read_as built
  refine ⟨s, id, ?_, ?_, _, Spec.checkBy_draft4 read, .inr ?_⟩
  · refine loadTarget_shelf brood ?_ ?_ built named
    · simp [nestedPets, Json.KeysUnique, Json.KeysUniqueItems, Json.KeysUniqueMembers, Entries.keys]
    · simp [nestedPets, Json.Legible, Json.LegibleItems, Json.LegibleMembers, Json.Reader.maxDepth]
  · refine loadPayload_shelf nestedPets ?_ ?_
    · simp [brood, Json.KeysUnique, Json.KeysUniqueMembers, Entries.keys]
    · simp [brood, Json.Legible, Json.LegibleMembers, Json.Reader.maxDepth]
  · exact h.tagFaults?_eq_none.mp (Option.isNone_iff_eq_none.mp never)

/-- A validation of pets with a name is answered where there is a payload. Where there is none, or the check never
ends, nothing is printed. -/
theorem verdict_printed_of_pets :
    (∃ ms, Answers (run (shelf namedPets rex) (.validate petTarget true)) ms) ∧
    Unanswered Validation.draft4 (alone namedPets) petTarget ∧
    (run (alone namedPets) (.validate petTarget true)).out = [] ∧
    (run (alone namedPets) (.validate petTarget true)).err.length = 1 ∧
    (run (alone namedPets) (.validate petTarget true)).code ≠ 0 ∧
    Unanswered Validation.draft4 (shelf nestedPets brood) petTarget ∧
    (run (shelf nestedPets brood) (.validate petTarget true)).out = [] := by
  obtain ⟨s, id, loaded, loaded', valid⟩ := namedPets_loaded
  have given : loadPayload (shelf namedPets rex) petTarget = .ok rex := loadPayload_rex namedPets
  have unanswered : Unanswered Validation.draft4 (alone namedPets) petTarget := .payload loaded rfl
  have ends : ¬ ∃ s id v, Endless Validation.draft4 (alone namedPets) petTarget s id v := by
    rintro ⟨_, _, v, endless⟩
    exact nomatch endless.given
  obtain ⟨s', id', endless⟩ := brood_endless
  obtain ⟨_, silent, failed⟩ := verdict_printed Validation.draft4 (alone namedPets) petTarget
  refine ⟨(verdict_printed Validation.draft4 _ _).1.mpr fun missing => ?_, unanswered, silent unanswered,
    (failed unanswered ends).1, (failed unanswered ends).2, .endless endless,
    (verdict_printed Validation.draft4 _ _).2.1 (.endless endless)⟩
  obtain ⟨e, unread⟩ := missing.not_judged loaded' given
  exact nomatch valid.symm.trans unread

/-- Pets whose names are at least as long as a text says. -/
def unruledPets : Json :=
  .object [("definitions", .object [("Pet", .object [("type", .string "object"),
    ("properties", .object [("name", .object [("type", .string "string"), ("minLength", .string "two")])])])])]

/-- No answer: there is no payload for the pets with a name, and there are no rules for the others. -/
theorem verdict_withheld :
    run (alone namedPets) (.validate petTarget true) =
      ⟨3, [], ["Error: loading payload: file not found: payload.json"]⟩ ∧
    (¬ ∃ ms, Answers (run (alone namedPets) (.validate petTarget true)) ms) ∧
    (run (shelf unruledPets rex) (.validate petTarget true)).out = [] ∧
    ¬ ∃ ms, Answers (run (shelf unruledPets rex) (.validate petTarget true)) ms := by
  obtain ⟨s, id, loaded, _⟩ := namedPets_loaded
  have result : run (alone namedPets) (.validate petTarget true) =
      ⟨3, [], ["Error: loading payload: file not found: payload.json"]⟩ := by
    simp only [run, runBy, runValidate, loaded]
    rfl
  have made : (Spec.build unruledPets .standard .standard).toOption.any (fun s =>
      (s.resolve "Pet").toOption.any fun id => !(s.rules id).isOk) = true := by
    decide +kernel
  obtain ⟨s', built, made⟩ := Except.exists_of_any made
  obtain ⟨id', named, unruled⟩ := Except.exists_of_any made
  obtain ⟨e, failed⟩ : ∃ e, s'.rules id' = .error e := by
    cases read : s'.rules id' with
    | error e => exact ⟨e, rfl⟩
    | ok r => rw [read] at unruled; cases unruled
  have loaded' : loadTarget (shelf unruledPets rex) petTarget = .ok (s', id') := by
    refine loadTarget_shelf rex ?_ ?_ built named
    · simp [unruledPets, Json.KeysUnique, Json.KeysUniqueMembers, Entries.keys]
    · simp [unruledPets, Json.Legible, Json.LegibleMembers, Json.Reader.maxDepth]
  have refused := Spec.checkBy_draft4_refused failed
  have silent : (run (shelf unruledPets rex) (.validate petTarget true)).out = [] :=
    (withheld (.refused loaded' (loadPayload_rex unruledPets) refused)).1
  exact ⟨result, not_answered_of_silent (by rw [result]), silent, not_answered_of_silent silent⟩

end Cli
end ApiPayload
