import EntityRest.Json.Basic

/-!
Reading JSON text.

A document is one value with blanks around it, nested at most 127 deep. Of a repeated key the last
field counts. A number without fraction and exponent is an integer if 64 bits hold it; any other is
a double, and it must not be beyond the largest one. Escapes must form whole characters.
-/

namespace EntityRest.Json.Reader

def skipBlanks (cs : List Char) : List Char :=
  cs.dropWhile fun c => c = ' ' || c = '\n' || c = '\r' || c = '\t'

def digitVal (c : Char) : Nat := c.toNat - 48

/-- The number of a decimal text: the digits that fit 64 bits, and a power of ten. -/
structure Digits where
  value : Nat
  exponent : Int

def fits (value : Nat) (c : Char) : Bool := value * 10 + digitVal c < 0x10000000000000000

/-- Digits before the point: from the first one that does not fit on, only their number counts. -/
def Digits.whole : Nat → List Char → Digits
  | value, [] => ⟨value, 0⟩
  | value, c :: cs =>
    if fits value c then whole (value * 10 + digitVal c) cs else ⟨value, cs.length + 1⟩

/-- Digits after the point: from the first one that does not fit on, they are dropped. -/
def Digits.fraction : Digits → List Char → Digits
  | d, [] => d
  | d, c :: cs =>
    if fits d.value c then fraction ⟨d.value * 10 + digitVal c, d.exponent - 1⟩ cs else d

/-- The double nearest to a power of ten. -/
def powerOfTen (n : Nat) : Double := (Double.ofDecimal? false 1 n).getD (Double.largest false)

/--
The digits are rounded to a double first and then multiplied or divided by a power of ten, which
rounds again; below the smallest power of ten the division is done in two steps.
-/
def Digits.toDouble? (d : Digits) : Option Double :=
  let x := Double.ofInt d.value
  if d.value = 0 then some x
  else if 308 < d.exponent then none
  else if 0 ≤ d.exponent then x.mul? (powerOfTen d.exponent.toNat)
  else if -308 ≤ d.exponent then x.div? (powerOfTen (-d.exponent).toNat)
  else if -616 ≤ d.exponent then
    (x.div? (powerOfTen 308)).bind (·.div? (powerOfTen (-d.exponent - 308).toNat))
  else some Double.zero

/-- The exponent part of a number, with the text after it. -/
def exponentPart? : List Char → Option (Int × List Char)
  | c :: cs =>
    if c = 'e' || c = 'E' then
      let (negative, cs) := match cs with
        | '+' :: cs => (false, cs)
        | '-' :: cs => (true, cs)
        | cs => (false, cs)
      let ds := cs.takeWhile Char.isDigit
      let n : Int := ds.foldl (fun n c => n * 10 + digitVal c) 0
      if ds.isEmpty then none else some (if negative then -n else n, cs.dropWhile Char.isDigit)
    else some (0, c :: cs)
  | [] => some (0, [])

/-- The digits after a point, with the text after them; none at all if no point stands there. -/
def fractionPart? : List Char → Option (List Char × List Char)
  | '.' :: cs =>
    let ds := cs.takeWhile Char.isDigit
    if ds.isEmpty then none else some (ds, cs.dropWhile Char.isDigit)
  | cs => some ([], cs)

/-- A number without its sign. -/
def unsigned? (negative : Bool) (cs : List Char) : Option (Number × List Char) := do
  let ds := cs.takeWhile Char.isDigit
  let rest := cs.dropWhile Char.isDigit
  if ds.isEmpty || (ds.head? == some '0' && ds.length != 1) then none
  let whole := Digits.whole 0 ds
  let (fs, rest') ← fractionPart? rest
  let (e, rest'') ← exponentPart? rest'
  let isInteger := rest''.length == rest.length && whole.exponent == 0
  if isInteger && !negative then some (.int whole.value, rest'')
  else if isInteger && 0 < whole.value && whole.value ≤ 0x8000000000000000 then
    some (.int (-whole.value), rest'')
  else
    let d := Digits.fraction whole fs
    let x ← Digits.toDouble? ⟨d.value, d.exponent + e⟩
    some (.float ⟨negative, x.pattern, x.pattern_lt⟩, rest'')

def number? : List Char → Option (Number × List Char)
  | '-' :: cs => unsigned? true cs
  | cs => unsigned? false cs

def hexVal? (c : Char) : Option Nat :=
  if c.isDigit then some (c.toNat - 48)
  else if 'a' ≤ c && c ≤ 'f' then some (c.toNat - 87)
  else if 'A' ≤ c && c ≤ 'F' then some (c.toNat - 55)
  else none

/-- Four hexadecimal digits. -/
def unit? : List Char → Option (Nat × List Char)
  | a :: b :: c :: d :: cs => do
    some ((((← hexVal? a) * 16 + (← hexVal? b)) * 16 + (← hexVal? c)) * 16 + (← hexVal? d), cs)
  | _ => none

def isHighSurrogate (n : Nat) : Bool := 0xD800 ≤ n && n < 0xDC00

def isLowSurrogate (n : Nat) : Bool := 0xDC00 ≤ n && n < 0xE000

/-- The character after the letter `u` of an escape: one unit, or a pair of surrogates. -/
def unicodeEscape? (cs : List Char) : Option (Char × List Char) := do
  let (n, cs) ← unit? cs
  if isLowSurrogate n then none
  else if isHighSurrogate n then
    match cs with
    | '\\' :: 'u' :: cs =>
      let (m, cs) ← unit? cs
      if isLowSurrogate m then some (Char.ofNat (0x10000 + (n - 0xD800) * 1024 + (m - 0xDC00)), cs)
      else none
    | _ => none
  else some (Char.ofNat n, cs)

/-- The character that an escape stands for, read after its backslash. -/
def escape? : List Char → Option (Char × List Char)
  | [] => none
  | c :: cs =>
    if c = '"' || c = '\\' || c = '/' then some (c, cs)
    else if c = 'b' then some (Char.ofNat 8, cs)
    else if c = 'f' then some (Char.ofNat 12, cs)
    else if c = 'n' then some ('\n', cs)
    else if c = 'r' then some ('\r', cs)
    else if c = 't' then some ('\t', cs)
    else if c = 'u' then unicodeEscape? cs
    else none

/-- The rest of a string after its opening quotation mark; `read` is what was read, backwards. -/
def string? : Nat → List Char → List Char → Option (String × List Char)
  | 0, _, _ => none
  | _ + 1, _, [] => none
  | fuel + 1, read, c :: cs =>
    if c = '"' then some (String.ofList read.reverse, cs)
    else if c = '\\' then (escape? cs).bind fun (d, cs) => string? fuel (d :: read) cs
    else if c.toNat < 32 then none
    else string? fuel (c :: read) cs

/-- Drops a word from the front of a text. -/
def word? (word cs : List Char) : Option (List Char) :=
  if word.isPrefixOf cs then some (cs.drop word.length) else none

mutual

/-- One value, with the text after it; `depth` is how many levels may still be opened. -/
def value? : Nat → Nat → List Char → Option (Json × List Char)
  | 0, _, _ => none
  | fuel + 1, depth, cs =>
    match skipBlanks cs with
    | [] => none
    | '"' :: cs => (string? (cs.length + 1) [] cs).map fun (s, cs) => (.str s, cs)
    | '[' :: cs =>
      if depth = 0 then none
      else match skipBlanks cs with
        | ']' :: cs => some (.arr [], cs)
        | cs => items? fuel (depth - 1) [] cs
    | '\x7b' :: cs =>
      if depth = 0 then none
      else match skipBlanks cs with
        | '\x7d' :: cs => some (.obj [], cs)
        | cs => fields? fuel (depth - 1) [] cs
    | 'n' :: cs => (word? "ull".toList cs).map fun cs => (.null, cs)
    | 't' :: cs => (word? "rue".toList cs).map fun cs => (.bool true, cs)
    | 'f' :: cs => (word? "alse".toList cs).map fun cs => (.bool false, cs)
    | cs => (number? cs).map fun (n, cs) => (.num n, cs)

/-- The items of an array up to its closing bracket; `read` is what was read, backwards. -/
def items? : Nat → Nat → List Json → List Char → Option (Json × List Char)
  | 0, _, _, _ => none
  | fuel + 1, depth, read, cs => do
    let (j, cs) ← value? fuel depth cs
    match skipBlanks cs with
    | ',' :: cs => items? fuel depth (j :: read) cs
    | ']' :: cs => some (.arr (j :: read).reverse, cs)
    | _ => none

/-- The fields of an object up to its closing brace. -/
def fields? : Nat → Nat → Fields → List Char → Option (Json × List Char)
  | 0, _, _, _ => none
  | fuel + 1, depth, read, cs => do
    match skipBlanks cs with
    | '"' :: cs =>
      let (k, cs) ← string? (cs.length + 1) [] cs
      match skipBlanks cs with
      | ':' :: cs =>
        let (j, cs) ← value? fuel depth cs
        let read := read.insert k j
        match skipBlanks cs with
        | ',' :: cs => fields? fuel depth read cs
        | '\x7d' :: cs => some (.obj read, cs)
        | _ => none
      | _ => none
    | _ => none

end

end Reader

/-- The value that a whole text stands for. -/
def ofText? (s : String) : Option Json := do
  let cs := s.toList
  let (j, rest) ← Reader.value? (cs.length + 1) 127 cs
  if (Reader.skipBlanks rest).isEmpty then some j else none

end EntityRest.Json
