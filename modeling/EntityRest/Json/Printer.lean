import EntityRest.Json.Basic

/-!
The text of a JSON value: no blanks, fields in key order, and only those characters escaped that
have to be.
-/

namespace EntityRest.Json

def hexDigit (n : Nat) : Char := (Nat.digitChar (n % 16))

/-- A quotation mark, a backslash and the control characters are written with a backslash. -/
def escapeChar (c : Char) : List Char :=
  if c = '"' then ['\\', '"']
  else if c = '\\' then ['\\', '\\']
  else if c = '\n' then ['\\', 'n']
  else if c = '\r' then ['\\', 'r']
  else if c = '\t' then ['\\', 't']
  else if c.toNat = 8 then ['\\', 'b']
  else if c.toNat = 12 then ['\\', 'f']
  else if c.toNat < 32 then ['\\', 'u', '0', '0', hexDigit (c.toNat / 16), hexDigit c.toNat]
  else [c]

def quote (s : String) : String := String.ofList ('"' :: (s.toList.flatMap escapeChar ++ ['"']))

mutual

def text : Json → String
  | null => "null"
  | bool b => if b then "true" else "false"
  | num n => n.text
  | str s => quote s
  | arr items => "[" ++ ",".intercalate (itemTexts items) ++ "]"
  | obj fields => "\x7b" ++ ",".intercalate (fieldTexts fields) ++ "\x7d"

def itemTexts : List Json → List String
  | [] => []
  | j :: js => text j :: itemTexts js

def fieldTexts : List (String × Json) → List String
  | [] => []
  | (k, j) :: fields => (quote k ++ ":" ++ text j) :: fieldTexts fields

end

end EntityRest.Json
