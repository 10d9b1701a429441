/-
A place in a text: the characters still to read, with the line and the column in bytes. A reading
fault is a cause and a position.
-/
namespace ApiPayload.Json

inductive ReadFault where
  | endInValue
  | endInArray
  | endInObject
  | endInString
  | expectedValue
  | expectedWord
  | expectedColon
  | expectedCommaOrBracket
  | expectedCommaOrBrace
  | expectedKey
  | trailingComma
  | trailingText
  | badNumber
  | numberOutOfRange
  | badEscape
  | loneSurrogate
  | openSurrogate
  | controlCharacter
  | tooDeep
  deriving DecidableEq, Repr

def ReadFault.message : ReadFault → String
  | endInValue => "EOF while parsing a value"
  | endInArray => "EOF while parsing a list"
  | endInObject => "EOF while parsing an object"
  | endInString => "EOF while parsing a string"
  | expectedValue => "expected value"
  | expectedWord => "expected ident"
  | expectedColon => "expected `:`"
  | expectedCommaOrBracket => "expected `,` or `]`"
  | expectedCommaOrBrace => "expected `,` or `\x7d`"
  | expectedKey => "key must be a string"
  | trailingComma => "trailing comma"
  | trailingText => "trailing characters"
  | badNumber => "invalid number"
  | numberOutOfRange => "number out of range"
  | badEscape => "invalid escape"
  | loneSurrogate => "lone leading surrogate in hex escape"
  | openSurrogate => "unexpected end of hex escape"
  | controlCharacter => "control character (\\u0000-\\u001F) found while parsing a string"
  | tooDeep => "recursion limit exceeded"

structure Position where
  line : Nat
  column : Nat
  deriving DecidableEq, Repr

structure ReadError where
  fault : ReadFault
  position : Position
  deriving DecidableEq, Repr

def ReadError.message (e : ReadError) : String :=
  e.fault.message ++ " at line " ++ toString e.position.line ++
    " column " ++ toString e.position.column

/-- The position after `n` bytes of a character; a line feed starts the next line. -/
def Position.pass (p : Position) (c : Char) (n : Nat) : Position :=
  if c = '\n' then ⟨p.line + 1, 0⟩ else ⟨p.line, p.column + n⟩

structure Cursor where
  rest : List Char
  position : Position
  deriving DecidableEq

namespace Cursor

def start (text : List Char) : Cursor := ⟨text, ⟨1, 0⟩⟩

def peek? (c : Cursor) : Option Char := c.rest.head?

def advance (c : Cursor) : Cursor :=
  match c.rest with
  | [] => c
  | x :: rest => ⟨rest, c.position.pass x x.utf8Size⟩

def fail (c : Cursor) (f : ReadFault) : Except ReadError α := .error ⟨f, c.position⟩

/-- The first byte ahead is to blame; at the end of the text there is none. -/
def failAhead (c : Cursor) (f : ReadFault) : Except ReadError α :=
  match c.rest with
  | [] => .error ⟨f, c.position⟩
  | x :: _ => .error ⟨f, c.position.pass x 1⟩

def passBytes : Nat → List Char → Position → Position
  | _, [], p => p
  | n, x :: rest, p =>
    if n = 0 then p else passBytes (n - x.utf8Size) rest (p.pass x (min n x.utf8Size))

def byteCount (text : List Char) : Nat := text.foldl (fun n c => n + c.utf8Size) 0

def isBlank (c : Char) : Bool := c = ' ' || c = '\n' || c = '\t' || c = '\r'

def skipBlanks (c : Cursor) : Cursor := go c.rest c.position
where
  go : List Char → Position → Cursor
  | [], p => ⟨[], p⟩
  | x :: rest, p => if isBlank x then go rest (p.pass x x.utf8Size) else ⟨x :: rest, p⟩

def digits (c : Cursor) : List Nat × Cursor := go c.rest c.position
where
  go : List Char → Position → List Nat × Cursor
  | [], p => ([], ⟨[], p⟩)
  | x :: rest, p =>
    if x.isDigit then
      let (ds, c) := go rest (p.pass x 1)
      ((x.toNat - '0'.toNat) :: ds, c)
    else ([], ⟨x :: rest, p⟩)

end Cursor
end ApiPayload.Json
