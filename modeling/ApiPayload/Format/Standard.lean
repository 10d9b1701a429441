import ApiPayload.Format.Converter

/-
The standard formats: dates, timestamps, bounded whole numbers and floating point numbers.
-/
namespace ApiPayload.Format

def date : Converter where
  name := "date"
  toNative
    | .string s => match Date.read s with
      | .ok d => .ok (.date d)
      | .error f => .error (.badDate f)
    | v => .error (.unexpected "string" v.typeName)
  toWire
    | .date d => .ok (.string d.text)
    | .dateTime t => .ok (.string t.date.text)
    | .string s => .ok (.string s)
    | v => .error (.unexpected "date" v.typeName)

def dateTime : Converter where
  name := "date-time"
  toNative
    | .string s => match DateTime.read s with
      | .ok t => .ok (.dateTime t)
      | .error f => .error (.badDate f)
    | v => .error (.unexpected "string" v.typeName)
  toWire
    | .dateTime t => .ok (.string t.text)
    | .string s => .ok (.string s)
    | v => .error (.unexpected "date-time" v.typeName)

def checkWhole (name : String) (low high : Int) (n : Number) : Except Fault Number :=
  match n.toInt64? with
  | some i => if low ≤ i ∧ i ≤ high then .ok n else .error (.outOfRange i name)
  | none => .error (.notWhole n)

/-- Whole numbers within bounds, unchanged in both directions. -/
def whole (name : String) (low high : Int) : Converter where
  name := name
  toNative
    | .number n => (checkWhole name low high n).map .number
    | v => .error (.unexpected "number" v.typeName)
  toWire
    | .number n => (checkWhole name low high n).map .number
    | v => .error (.unexpected "number" v.typeName)

/-- Numbers become floating point in both directions. -/
def floating (name : String) : Converter where
  name := name
  toNative
    | .number n => .ok (.number (.float n.toFloat))
    | v => .error (.unexpected "number" v.typeName)
  toWire
    | .number n => .ok (.number (.float n.toFloat))
    | v => .error (.unexpected "number" v.typeName)

def standard : List Converter :=
  [date, dateTime, whole "int32" (-2147483648) 2147483647,
   whole "int64" (-9223372036854775808) 9223372036854775807, floating "float", floating "double"]

def Registry.standard : Registry := Format.standard.foldl Registry.register Registry.empty

end ApiPayload.Format
