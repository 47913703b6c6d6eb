import EntityRest.Data.OrdMap
import EntityRest.Text.Utf8

/-!
Query strings as forms send them: pairs joined by `&`, with plus signs for spaces and percent signs
before the hexadecimal code of a byte.
-/

namespace EntityRest.FormQuery

def hexByte? (b : Nat) : Option Nat :=
  if 48 ≤ b && b ≤ 57 then some (b - 48)
  else if 65 ≤ b && b ≤ 70 then some (b - 55)
  else if 97 ≤ b && b ≤ 102 then some (b - 87)
  else none

/-- The bytes that an encoded text stands for; a percent sign without a code stays. -/
def unescape : List Nat → List Nat
  | 0x25 :: a :: b :: bs =>
    match hexByte? a, hexByte? b with
    | some x, some y => (x * 16 + y) :: unescape bs
    | _, _ => 0x25 :: unescape (a :: b :: bs)
  | 0x2B :: bs => 0x20 :: unescape bs
  | b :: bs => b :: unescape bs
  | [] => []

def decodeText (bytes : List Nat) : String := String.ofList (Text.Utf8.decode (unescape bytes))

/-- The pieces between ampersands. -/
def splitPairs : List Nat → List (List Nat)
  | [] => [[]]
  | b :: bs =>
    if b = 0x26 then [] :: splitPairs bs
    else match splitPairs bs with
      | [] => [[b]]
      | piece :: pieces => (b :: piece) :: pieces

/-- A pair is split at its first equals sign; without one the value is empty. -/
def decodePair (piece : List Nat) : String × String :=
  (decodeText (piece.takeWhile (· ≠ 0x3D)), decodeText ((piece.dropWhile (· ≠ 0x3D)).drop 1))

/-- The parameters of a query string; of a repeated name the last value counts. -/
def params (query : String) : OrdMap String String :=
  OrdMap.ofList
    (((splitPairs (Text.Utf8.encode query)).filter fun piece => !piece.isEmpty).map decodePair)

end EntityRest.FormQuery
