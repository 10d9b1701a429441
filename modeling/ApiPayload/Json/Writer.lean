import ApiPayload.Json.Basic

/-
Writing JSON: compact on one line, or indented by two spaces with empty containers closed at once.
-/
namespace ApiPayload.Json

def hexDigit (n : Nat) : Char := Nat.digitChar n

/-- Quotes, backslashes and control characters are escaped, all else stands for itself. -/
def escapeChar (c : Char) : List Char :=
  if c = '"' then ['\\', '"']
  else if c = '\\' then ['\\', '\\']
  else if c = '\n' then ['\\', 'n']
  else if c = '\r' then ['\\', 'r']
  else if c = '\t' then ['\\', 't']
  else if c.val = 8 then ['\\', 'b']
  else if c.val = 12 then ['\\', 'f']
  else if c.val < 32 then
    ['\\', 'u', '0', '0', hexDigit (c.toNat / 16), hexDigit (c.toNat % 16)]
  else [c]

def quoted (s : String) : List Char := '"' :: (s.toList.flatMap escapeChar ++ ['"'])

mutual
def chars : Json → List Char
  | null => ['n', 'u', 'l', 'l']
  | bool true => ['t', 'r', 'u', 'e']
  | bool false => ['f', 'a', 'l', 's', 'e']
  | number n => n.render.toList
  | string s => quoted s
  | array xs => '[' :: (charsItems xs ++ [']'])
  | object ms => '\x7b' :: (charsMembers ms ++ ['\x7d'])

def charsItems : List Json → List Char
  | [] => []
  | [x] => chars x
  | x :: xs => chars x ++ ',' :: charsItems xs

def charsMembers : List (String × Json) → List Char
  | [] => []
  | [(k, x)] => quoted k ++ ':' :: chars x
  | (k, x) :: ms => quoted k ++ ':' :: chars x ++ ',' :: charsMembers ms
end

def compact (v : Json) : String := String.ofList v.chars

def lineAt (level : Nat) : List Char := '\n' :: List.replicate (2 * level) ' '

mutual
def indentedChars (level : Nat) : Json → List Char
  | array [] => ['[', ']']
  | array (x :: xs) => '[' :: (indentedItems (level + 1) (x :: xs) ++ lineAt level ++ [']'])
  | object [] => ['\x7b', '\x7d']
  | object (m :: ms) =>
    '\x7b' :: (indentedMembers (level + 1) (m :: ms) ++ lineAt level ++ ['\x7d'])
  | v => chars v

def indentedItems (level : Nat) : List Json → List Char
  | [] => []
  | [x] => lineAt level ++ indentedChars level x
  | x :: xs => lineAt level ++ indentedChars level x ++ ',' :: indentedItems level xs

def indentedMembers (level : Nat) : List (String × Json) → List Char
  | [] => []
  | [(k, x)] => lineAt level ++ quoted k ++ ':' :: ' ' :: indentedChars level x
  | (k, x) :: ms =>
    lineAt level ++ quoted k ++ ':' :: ' ' :: indentedChars level x ++
      ',' :: indentedMembers level ms
end

def indented (v : Json) : String := String.ofList (indentedChars 0 v)

end ApiPayload.Json
