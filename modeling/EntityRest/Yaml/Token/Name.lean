import EntityRest.Yaml.Scalar
import EntityRest.Yaml.Token

/-!
Names, tags and directives.

A tag is written in full between angle brackets, or as a handle with a suffix, or as a suffix alone.
Its characters are those of URIs; a percent sign with two digits stands for a byte.
-/

namespace EntityRest.Yaml

/-- The name of an anchor or a reference, behind its mark. -/
def anchorName? (p : Cursor) : Option (String × Cursor) :=
  let (name, q) := p.next.span isNameChar
  let ends := q.isFree || q.seesAny fun c => "?:,]\x7d%@".toList.contains c || c.toNat = 0x60
  if !name.isEmpty && ends then some (String.ofList name, q) else none

namespace Tag

/-- Whether a character can stand in a tag; one in brackets can hold marks of the flow style. -/
def isTagChar (bracketed : Bool) (c : Char) : Bool :=
  isNameChar c || ";/?:@&=+$.!~*'()".toList.contains c ||
    (bracketed && (c = ',' || c = '[' || c = ']'))

/-- How many bytes follow a first byte, by its leading bits. -/
def following? (byte : Nat) : Option Nat :=
  if byte < 0x80 then some 0
  else if byte < 0xC0 then none
  else if byte < 0xE0 then some 1
  else if byte < 0xF0 then some 2
  else if byte < 0xF8 then some 3
  else none

/-- The bytes at the start of a text while bytes of an escaped character are due. -/
def bytesFrom? (bracketed : Bool) : Nat → List Char → Option (TagBytes × List Char)
  | due, '%' :: a :: b :: cs => do
    let byte ← natInBase? 16 [a, b]
    let due ← if due = 0 then following? byte
      else if 0x80 ≤ byte && byte < 0xC0 then some (due - 1) else none
    let (bytes, rest) ← bytesFrom? bracketed due cs
    some (byte :: bytes, rest)
  | due, c :: cs =>
    if due ≠ 0 || c = '%' then none
    else if isTagChar bracketed c then do
      let (bytes, rest) ← bytesFrom? bracketed 0 cs
      some (c.toNat :: bytes, rest)
    else some ([], c :: cs)
  | due, [] => if due = 0 then some ([], []) else none

/--
The bytes of a tag, and the cursor behind them; a zero byte ends them, but not the text that spells
them.
-/
def bytes? (bracketed : Bool) (p : Cursor) : Option (TagBytes × Cursor) := do
  let (bytes, rest) ← bytesFrom? bracketed 0 p.rest
  some (bytes.takeWhile (· ≠ 0), p.skip (p.rest.length - rest.length))

/-- Bytes of a tag that are not missing altogether. -/
def someBytes? (bracketed : Bool) (p : Cursor) : Option (TagBytes × Cursor) := do
  let (bytes, q) ← bytes? bracketed p
  if q.index = p.index then none else some (bytes, q)

/-- Handle and suffix of the tag at a cursor. -/
def parts? (p : Cursor) : Option ((String × TagBytes) × Cursor) :=
  if p.sees '<' 1 then do
    let (bytes, q) ← someBytes? true (p.skip 2)
    if q.sees '>' then some (("", bytes), q.next) else none
  else
    let (word, q) := p.next.span isNameChar
    if q.sees '!' then do
      let (bytes, q) ← someBytes? false q.next
      some ((String.ofList ('!' :: word ++ ['!']), bytes), q)
    else do
      let (bytes, q) ← bytes? false q
      let suffix := word.map Char.toNat ++ bytes
      some (if suffix.isEmpty then ("", [0x21]) else ("!", suffix), q)

/-- The tag at a cursor as a token; a blank has to follow it, or in flow style a comma. -/
def token? (flow : Bool) (p : Cursor) : Option (Token × Cursor) := do
  let ((handle, suffix), q) ← parts? p
  if q.isFree || (flow && q.sees ',') then some (.tag handle suffix, q) else none

end Tag

namespace Directive

/-- A part of a version: up to nine digits. -/
def number? (p : Cursor) : Option (Nat × Cursor) :=
  let (digits, q) := p.span Char.isDigit
  if digits.isEmpty || 9 < digits.length then none else some (Text.natOfDigits digits, q)

def version? (p : Cursor) : Option (Token × Cursor) := do
  let (major, p) ← number? p
  if p.sees '.' then
    let (minor, p) ← number? p.next
    some (.version major minor, p)
  else none

/-- A handle is an exclamation mark alone, two of them, or a name between two. -/
def tagHandle? (p : Cursor) : Option (Token × Cursor) := do
  if !p.sees '!' then none
  else
    let (word, q) := p.next.span isNameChar
    let closed := q.sees '!'
    let q := if closed then q.next else q
    if (!closed && !word.isEmpty) || !q.seesAny isBlank then none
    else
      let (start, q) ← Tag.someBytes? true (q.skipWhile isBlank)
      let handle := '!' :: word ++ if closed then ['!'] else []
      if q.isFree then some (.tagHandle (String.ofList handle) start, q) else none

/-- The directive at a cursor as a token, with the cursor behind its line. -/
def token? (p : Cursor) : Option (Token × Cursor) := do
  let (name, p) := p.next.span isNameChar
  let body := p.skipWhile isBlank
  if !p.isFree then none
  else
    let (t, q) ←
      if name = "YAML".toList then version? body
      else if name = "TAG".toList then tagHandle? body
      else none
    some (t, ← q.nextLine?)

end Directive

end EntityRest.Yaml
