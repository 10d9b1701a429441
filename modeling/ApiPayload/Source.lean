import ApiPayload.Json.Reader
import ApiPayload.Schema.Error

/-
Where documents come from: texts, files and network addresses.
-/
namespace ApiPayload

/-- What reading a file gives, or asking a network address: that is `absent` to a build without a client
for networks, `unreadable` where the request fails, and else the body of the answer. -/
inductive FileState where
  | absent
  | unreadable (reason : String)
  | content (bytes : ByteArray)

namespace FileState

def directory : FileState := unreadable "Is a directory (os error 21)"

end FileState

namespace Source

def ofText (text : String) : Except SpecError Json := (Json.read text).mapError .invalidJson

def ofFile (path : String) : FileState → Except SpecError Json
  | .absent => .error (.fileNotFound path)
  | .unreadable reason => .error (.unreadable (.file path) reason)
  | .content bytes =>
    match String.fromUTF8? bytes with
    | some text => ofText text
    | none => .error (.unreadable (.file path) "stream did not contain valid UTF-8")

/-- A body that is no JSON is a failure of the request. -/
def ofAddress (url : String) : FileState → Except SpecError Json
  | .absent => .error (.fileNotFound url)
  | .unreadable reason => .error (.unreadable (.address url) reason)
  | .content bytes =>
    let undecoded : SpecError := .unreadable (.address url) "error decoding response body"
    match String.fromUTF8? bytes with
    | some text => (Json.read text).mapError fun _ => undecoded
    | none => .error undecoded

def isUrl (s : String) : Bool := s.startsWith "http://" || s.startsWith "https://"

def ofName (name : String) (f : FileState) : Except SpecError Json :=
  if isUrl name then ofAddress name f else ofFile name f

end Source
end ApiPayload
