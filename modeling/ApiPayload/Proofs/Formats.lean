import ApiPayload.Proofs.Calendar
import ApiPayload.Format.Standard

/-
What the standard formats keep. Each reads single values only, gives values of its own that are
neither null nor texts, and writes a value it has read so that it reads the same.
-/
namespace ApiPayload.Format

structure Converter.Faithful (c : Converter) : Prop where
  single : ∀ {v n}, c.toNative v = .ok n → v.isNull = false ∧ v.object? = none
  typed : ∀ {v n}, c.toNative v = .ok n → n.isNull = false ∧ n.string? = none ∧ n.entries? = none
  returns : ∀ {v n}, c.toNative v = .ok n → ∃ w, c.toWire n = .ok w ∧ c.toNative w = .ok n

theorem date_read {v : Json} {n : Native} (read : date.toNative v = .ok n) :
    ∃ s d, v = .string s ∧ n = .date d := by
  cases v with
  | string s =>
    simp only [date] at read
    split at read
    · cases read
      exact ⟨s, _, rfl, rfl⟩
    · cases read
  | _ => cases read

theorem date_faithful : date.Faithful := by
  refine ⟨fun {v n} read => ?_, fun {v n} read => ?_, fun {v n} read => ?_⟩
  · obtain ⟨s, d, rfl, rfl⟩ := date_read read
    exact ⟨rfl, rfl⟩
  · obtain ⟨s, d, rfl, rfl⟩ := date_read read
    exact ⟨rfl, rfl, rfl⟩
  · obtain ⟨s, d, rfl, rfl⟩ := date_read read
    refine ⟨.string d.text, rfl, ?_⟩
    simp only [date, Date.read_text]

theorem dateTime_read {v : Json} {n : Native} (read : dateTime.toNative v = .ok n) :
    ∃ s t, v = .string s ∧ n = .dateTime t := by
  cases v with
  | string s =>
    simp only [dateTime] at read
    split at read
    · cases read
      exact ⟨s, _, rfl, rfl⟩
    · cases read
  | _ => cases read

theorem dateTime_faithful : dateTime.Faithful := by
  refine ⟨fun {v n} read => ?_, fun {v n} read => ?_, fun {v n} read => ?_⟩
  · obtain ⟨s, t, rfl, rfl⟩ := dateTime_read read
    exact ⟨rfl, rfl⟩
  · obtain ⟨s, t, rfl, rfl⟩ := dateTime_read read
    exact ⟨rfl, rfl, rfl⟩
  · obtain ⟨s, t, rfl, rfl⟩ := dateTime_read read
    refine ⟨.string t.text, rfl, ?_⟩
    simp only [dateTime, DateTime.read_text]

section Numbers
variable {name : String} {low high : Int} {v : Json} {n : Native}

theorem checkWhole_ok {m checked : Number} (h : checkWhole name low high m = .ok checked) :
    checked = m := by
  unfold checkWhole at h
  split at h
  · split at h
    · cases h
      rfl
    · cases h
  · cases h

theorem whole_read (read : (whole name low high).toNative v = .ok n) :
    ∃ m, checkWhole name low high m = .ok m ∧ v = .number m ∧ n = .number m := by
  cases v with
  | number m =>
    change (checkWhole name low high m).map Native.number = .ok n at read
    cases checked : checkWhole name low high m with
    | error e =>
      rw [checked] at read
      cases read
    | ok k =>
      rw [checked] at read
      cases read
      have same := checkWhole_ok checked
      subst same
      exact ⟨_, checked, rfl, rfl⟩
  | _ => cases read

theorem whole_faithful (name : String) (low high : Int) : (whole name low high).Faithful := by
  refine ⟨fun {v n} read => ?_, fun {v n} read => ?_, fun {v n} read => ?_⟩
  · obtain ⟨m, _, rfl, rfl⟩ := whole_read read
    exact ⟨rfl, rfl⟩
  · obtain ⟨m, _, rfl, rfl⟩ := whole_read read
    exact ⟨rfl, rfl, rfl⟩
  · obtain ⟨m, checked, rfl, rfl⟩ := whole_read read
    refine ⟨.number m, ?_, read⟩
    change (checkWhole name low high m).map Json.number = .ok (.number m)
    rw [checked]
    rfl

theorem floating_read (read : (floating name).toNative v = .ok n) :
    ∃ m : Number, v = .number m ∧ n = .number (.float m.toFloat) := by
  cases v with
  | number m =>
    cases read
    exact ⟨m, rfl, rfl⟩
  | _ => cases read

theorem floating_faithful (name : String) : (floating name).Faithful := by
  refine ⟨fun {v n} read => ?_, fun {v n} read => ?_, fun {v n} read => ?_⟩
  · obtain ⟨m, rfl, rfl⟩ := floating_read read
    exact ⟨rfl, rfl⟩
  · obtain ⟨m, rfl, rfl⟩ := floating_read read
    exact ⟨rfl, rfl, rfl⟩
  · obtain ⟨m, rfl, rfl⟩ := floating_read read
    exact ⟨.number (.float m.toFloat), rfl, rfl⟩

end Numbers

theorem standard_faithful {name : String} {c : Converter}
    (found : Registry.standard.find? name = some c) : c.Faithful := by
  have member : c ∈ standard := Registry.mem_of_find? found
  simp only [standard, List.mem_cons, List.not_mem_nil, or_false] at member
  rcases member with rfl | rfl | rfl | rfl | rfl | rfl
  · exact date_faithful
  · exact dateTime_faithful
  · exact whole_faithful _ _ _
  · exact whole_faithful _ _ _
  · exact floating_faithful _
  · exact floating_faithful _

end ApiPayload.Format
