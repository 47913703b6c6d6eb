import EntityRest.Text.Blank

/-!
Reading decimal integers from text.
-/

namespace EntityRest.Text

/-- The value of a digit sequence. -/
def natOfDigits (cs : List Char) : Nat := cs.foldl (fun n c => n * 10 + (c.toNat - 48)) 0

/-- A non-empty sequence of ASCII digits. -/
def natOfChars? (cs : List Char) : Option Nat :=
  if cs.isEmpty || !cs.all Char.isDigit then none else some (natOfDigits cs)

/-- An integer with an optional sign. -/
def intOfChars? : List Char → Option Int
  | '-' :: cs => (natOfChars? cs).map fun n => -(n : Int)
  | '+' :: cs => (natOfChars? cs).map fun n => (n : Int)
  | cs => (natOfChars? cs).map fun n => (n : Int)

def inInt64 (n : Int) : Bool := -0x8000000000000000 ≤ n && n < 0x8000000000000000

/-- An integer with an optional sign that 64 signed bits hold; nothing may surround it. -/
def int64OfChars? (cs : List Char) : Option Int := (intOfChars? cs).filter inInt64

/-- The 64-bit integer in a text, with blanks around it allowed. -/
def int64? (s : String) : Option Int := int64OfChars? (trimChars s.toList)

end EntityRest.Text
