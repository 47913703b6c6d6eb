import EntityRest.Json.Basic
import EntityRest.Text.Integer

/-!
What the text of a plain scalar stands for: a null, a boolean, a number, or else itself.
-/

namespace EntityRest.Yaml

def isNullWord (s : String) : Bool := s ∈ ["~", "null", "Null", "NULL"]

/-- Whether a plain scalar is a null, for which nothing needs to be written. -/
def isNullText (s : String) : Bool := s = "" || isNullWord s

def boolOfText? (s : String) : Option Bool :=
  if s ∈ ["true", "True", "TRUE"] then some true
  else if s ∈ ["false", "False", "FALSE"] then some false
  else none

/-- The value of digits of a base up to 16; there has to be one at least. -/
def natInBase? (base : Nat) (cs : List Char) : Option Nat :=
  if cs.isEmpty then none
  else cs.foldl
    (fun n c => do
      let n ← n
      let d := if c.isDigit then c.toNat - 48 else (c.toLower.toNat - 87)
      if (c.isDigit || ('a' ≤ c.toLower && c.toLower ≤ 'f')) && d < base then some (n * base + d)
      else none)
    (some 0)

/-- Digits that start with a superfluous zero are no number. -/
def hasLeadingZero (cs : List Char) : Bool :=
  match cs with
  | '0' :: _ :: _ => cs.all Char.isDigit
  | _ => false

/-- A number without a minus sign: decimal, or hexadecimal, octal or binary after its mark. -/
def natOfChars? : List Char → Option Nat
  | '0' :: 'x' :: cs => natInBase? 16 cs
  | '0' :: 'o' :: cs => natInBase? 8 cs
  | '0' :: 'b' :: cs => natInBase? 2 cs
  | cs => if hasLeadingZero cs then none else natInBase? 10 cs

def dropPlus : List Char → List Char
  | '+' :: cs => cs
  | cs => cs

/-- The integer of a plain scalar. -/
def intOfText? (s : String) : Option Int :=
  match s.toList with
  | '-' :: cs => (natOfChars? cs).map fun n => -(n : Int)
  | cs => (natOfChars? (dropPlus cs)).map fun n => (n : Int)

/-- A number that 64 bits hold without a sign. -/
def nat64OfText? (s : String) : Option Nat :=
  (natOfChars? (dropPlus s.toList)).filter (· < 0x10000000000000000)

/-- The exponent of a decimal, which may be absent; nothing may follow. -/
def exponentOfChars? : List Char → Option Int
  | [] => some 0
  | c :: cs => if c = 'e' || c = 'E' then Text.intOfChars? cs else none

/-- A decimal without a sign: digits with a point at most, and an exponent at most. -/
def decimalOfChars? (negative : Bool) (cs : List Char) : Option Double := do
  let whole := cs.takeWhile Char.isDigit
  let rest := cs.dropWhile Char.isDigit
  let (fraction, rest) := match rest with
    | '.' :: rest => (rest.takeWhile Char.isDigit, rest.dropWhile Char.isDigit)
    | rest => ([], rest)
  let e ← exponentOfChars? rest
  if whole.isEmpty && fraction.isEmpty then none
  else Double.ofDecimal? negative (Text.natOfDigits (whole ++ fraction)) (e - fraction.length)

/-- The number of a plain scalar, as a limit. -/
def boundOfText? (s : String) : Option Bound :=
  if s ∈ [".nan", ".NaN", ".NAN"] then some .incomparable
  else if s ∈ [".inf", ".Inf", ".INF", "+.inf", "+.Inf", "+.INF"] then some (.infinite false)
  else if s ∈ ["-.inf", "-.Inf", "-.INF"] then some (.infinite true)
  else match s.toList with
    | '-' :: cs => (decimalOfChars? true cs).map .finite
    | cs => (decimalOfChars? false (dropPlus cs)).map .finite

/-- Whether 128 bits hold an integer, with or without a sign. -/
def inInt128 (n : Int) : Bool :=
  -0x80000000000000000000000000000000 ≤ n && n < 0x100000000000000000000000000000000

/-- The value of an integer; only 64 bits are read, but integers of 128 bits count as such. -/
def jsonOfInt? (s : String) : Option (Option Json) :=
  match (intOfText? s).filter inInt128 with
  | some n => some (if -0x8000000000000000 ≤ n && n < 0x10000000000000000 then some (.int n) else none)
  | none => none

/-- The value of a limit, where what is not finite is null. -/
def jsonOfBound : Bound → Json
  | .finite x => .num (.float x)
  | _ => .null

/-- The value of a plain scalar; an integer beyond 64 bits has none unless it is beyond 128. -/
def jsonOfText? (s : String) : Option Json :=
  if isNullText s then some .null
  else match boolOfText? s, jsonOfInt? s with
    | some b, _ => some (.bool b)
    | none, some n => n
    | none, none =>
      if hasLeadingZero (s.toList.dropWhile fun c => c = '+' || c = '-') then some (.str s)
      else some ((boundOfText? s).elim (.str s) jsonOfBound)

end EntityRest.Yaml
