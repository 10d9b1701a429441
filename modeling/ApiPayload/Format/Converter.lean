import ApiPayload.NameSet
import ApiPayload.Native

/-
Format converters: a pair of partial functions between wire and native values under a name, and
registries of them.
-/
namespace ApiPayload.Format

inductive Fault where
  | unexpected (wanted found : String)
  | badDate (fault : DateFault)
  | notWhole (n : Number)
  | outOfRange (value : Int) (format : String)
  | rejected (reason : String)
  deriving DecidableEq

def Fault.message : Fault → String
  | unexpected wanted found => "expected " ++ wanted ++ ", got " ++ found
  | badDate f => f.message
  | notWhole n => n.render ++ " is not an integer"
  | outOfRange i format => toString i ++ " is out of range for " ++ format
  | rejected reason => reason

structure Converter where
  name : String
  toNative : Json → Except Fault Native
  toWire : Native → Except Fault Json

structure Registry where
  converters : List (String × Converter)

namespace Registry

def empty : Registry := ⟨[]⟩

/-- A converter takes the place of an earlier one of its name. -/
def register (r : Registry) (c : Converter) : Registry := ⟨Entries.insert c.name c r.converters⟩

def find? (r : Registry) (name : String) : Option Converter := Entries.get? name r.converters

def names (r : Registry) : NameSet := .ofList (Entries.keys r.converters)

theorem find?_register (r : Registry) (c : Converter) (name : String) :
    (r.register c).find? name = if c.name = name then some c else r.find? name :=
  Entries.get?_insert c.name name c r.converters

theorem find?_foldl_register {cs : List Converter} {r : Registry} {name : String} {c : Converter}
    (found : (cs.foldl register r).find? name = some c) : c ∈ cs ∨ r.find? name = some c := by
  induction cs generalizing r with
  | nil => exact .inr found
  | cons first rest ih =>
    rcases ih found with later | found
    · exact .inl (List.mem_cons_of_mem first later)
    · rw [find?_register] at found
      split at found
      · cases found
        exact .inl List.mem_cons_self
      · exact .inr found

/-- A registry of some converters knows no others. -/
theorem mem_of_find? {cs : List Converter} {name : String} {c : Converter}
    (found : (cs.foldl register empty).find? name = some c) : c ∈ cs := by
  rcases find?_foldl_register found with member | none
  · exact member
  · cases none

end Registry
end ApiPayload.Format
