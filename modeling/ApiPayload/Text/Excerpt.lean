/-
Excerpts: a text that is too long for a message is cut at a character boundary and marked.
-/
namespace ApiPayload.Text

def excerptBytes : Nat := 200

/-- The longest start of a text that takes at most `limit` bytes. -/
def fitting (limit : Nat) : List Char → List Char
  | [] => []
  | c :: rest => if c.utf8Size ≤ limit then c :: fitting (limit - c.utf8Size) rest else []

def excerpt (s : String) : String :=
  if s.utf8ByteSize ≤ excerptBytes then s
  else String.ofList (fitting excerptBytes s.toList) ++ "..."

end ApiPayload.Text
