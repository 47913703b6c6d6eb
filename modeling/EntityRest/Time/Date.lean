import EntityRest.Text.Blank
import EntityRest.Text.Integer

/-!
Recognising dates and date-times in text.

Four forms are accepted: RFC 3339 with all its digits, and three looser ones whose numbers may have
fewer digits and blanks before them. A date has to exist in the proleptic Gregorian calendar, and
second 60 stands for a leap second.
-/

namespace EntityRest.Time

open EntityRest.Text

def isLeapYear (y : Int) : Bool := y % 4 == 0 && (y % 100 != 0 || y % 400 == 0)

def daysInMonth (y : Int) (m : Nat) : Nat :=
  if m = 2 then (if isLeapYear y then 29 else 28)
  else if m = 4 || m = 6 || m = 9 || m = 11 then 30
  else 31

/-- Whether the calendar has a day; years lie in the range -262143 to 262142. -/
def dateExists (y : Int) (m d : Nat) : Bool :=
  -262143 ≤ y && y ≤ 262142 && 1 ≤ m && m ≤ 12 && 1 ≤ d && d ≤ daysInMonth y m

def timeExists (h m s : Nat) : Bool := h ≤ 23 && m ≤ 59 && s ≤ 60

/-- Exactly `n` digits. -/
def fixed? (n : Nat) (cs : List Char) : Option (Nat × List Char) :=
  (natOfChars? (cs.take n)).bind fun v => if n ≤ cs.length then some (v, cs.drop n) else none

/-- One expected character. -/
def char? (p : Char → Bool) : List Char → Option (List Char)
  | c :: cs => if p c then some cs else none
  | [] => none

/-- The digits at the front, at most `limit` of them and one at least. -/
def digits? (limit : Nat) (cs : List Char) : Option (Nat × List Char) :=
  let ds := (cs.take limit).takeWhile Char.isDigit
  if ds.isEmpty then none else some (natOfDigits ds, cs.drop ds.length)

/-- An optional point with digits after it. -/
def fraction? : List Char → Option (List Char)
  | '.' :: cs => (digits? cs.length cs).map Prod.snd
  | cs => some cs

/-- The offset from universal time: `Z`, or a sign with hours and minutes. -/
def offset? (cs : List Char) : Option (List Char) :=
  char? (fun c => c = 'Z' || c = 'z') cs <|> do
    let cs ← char? (fun c => c = '+' || c = '-' || c.toNat = 0x2212) cs
    let (h, cs) ← fixed? 2 cs
    let cs ← char? (· = ':') cs
    let (m, cs) ← fixed? 2 cs
    if h ≤ 23 && m ≤ 59 then some cs else none

/-- RFC 3339: all fields with all their digits, and an offset. -/
def isRfc3339 (cs : List Char) : Bool :=
  Option.isSome do
    let (y, cs) ← fixed? 4 cs
    let cs ← char? (· = '-') cs
    let (mo, cs) ← fixed? 2 cs
    let cs ← char? (· = '-') cs
    let (d, cs) ← fixed? 2 cs
    let cs ← char? (fun c => c = 'T' || c = 't' || c = ' ') cs
    let (h, cs) ← fixed? 2 cs
    let cs ← char? (· = ':') cs
    let (mi, cs) ← fixed? 2 cs
    let cs ← char? (· = ':') cs
    let (s, cs) ← fixed? 2 cs
    let cs ← fraction? cs
    let cs ← offset? cs
    if cs.isEmpty && dateExists y mo d && timeExists h mi s then some () else none

/-- A number of one or two digits, with blanks allowed before it. -/
def loose? (cs : List Char) : Option (Nat × List Char) := digits? 2 (trimLeft cs)

/-- A year: up to four digits, or any number of them after a sign; blanks are allowed before it. -/
def looseYear? (cs : List Char) : Option (Int × List Char) :=
  match trimLeft cs with
  | '-' :: cs => (digits? cs.length cs).map fun (n, cs) => (-n, cs)
  | '+' :: cs => (digits? cs.length cs).map fun (n, cs) => (n, cs)
  | cs => (digits? 4 cs).map fun (n, cs) => (n, cs)

/-- A day that exists, in the order year, month, day, with the text after it. -/
def looseDate? (cs : List Char) : Option (List Char) := do
  let (y, cs) ← looseYear? cs
  let cs ← char? (· = '-') cs
  let (m, cs) ← loose? cs
  let cs ← char? (· = '-') cs
  let (d, cs) ← loose? cs
  if dateExists y m d then some cs else none

/-- A time of day, with the text after it. -/
def looseTime? (cs : List Char) : Option (List Char) := do
  let (h, cs) ← loose? cs
  let cs ← char? (· = ':') cs
  let (m, cs) ← loose? cs
  let cs ← char? (· = ':') cs
  let (s, cs) ← loose? cs
  if timeExists h m s then some cs else none

/-- Whether a reader takes the whole text. -/
def takesAll (rest : Option (List Char)) : Bool := rest == some []

/-- Whether a text is a date or a date-time in one of the four forms. -/
def isDateTime (s : String) : Bool :=
  let cs := s.toList
  let date := looseDate? cs
  isRfc3339 cs
    || takesAll (date.bind (char? (· = 'T')) |>.bind looseTime? |>.bind fraction?)
    || takesAll (date.bind (looseTime? ∘ trimLeft))
    || takesAll date

end EntityRest.Time
