/-!
A YAML text and a place in it.

The column decides in block style what belongs together, the line and the index how far a key may
reach; so every step forward keeps count of all three.
-/

namespace EntityRest.Yaml

def isBlank (c : Char) : Bool := c = ' ' || c = '\t'

/-- Whether a character ends a line: the line feed, or the line or paragraph separator. -/
def isBreak (c : Char) : Bool := c = '\n' || c.toNat = 0x2028 || c.toNat = 0x2029

/-- Line ends of every other spelling become line feeds. -/
def unifyBreaks : List Char → List Char
  | [] => []
  | '\r' :: '\n' :: cs => '\n' :: unifyBreaks cs
  | '\r' :: cs => '\n' :: unifyBreaks cs
  | c :: cs => (if c.toNat = 0x85 then '\n' else c) :: unifyBreaks cs

/-- Whether a character may stand in a text; most control characters may not. -/
def isPrintable (c : Char) : Bool :=
  let n := c.toNat
  n = 9 || n = 10 || n = 13 || (0x20 ≤ n && n ≤ 0x7E) || n = 0x85 || (0xA0 ≤ n && n ≤ 0xFFFD) ||
    0x10000 ≤ n

/-- The mark of byte order. -/
def byteOrderMark : Char := Char.ofNat 0xFEFF

/-- The text that is left to read, and where in the whole text it starts. -/
structure Cursor where
  rest : List Char
  index : Nat
  line : Nat
  column : Nat

namespace Cursor

/-- The start of a text. -/
def start (cs : List Char) : Cursor := ⟨cs, 0, 0, 0⟩

/-- Passes over one character. -/
def next (p : Cursor) : Cursor :=
  match p.rest with
  | [] => p
  | c :: cs =>
    if isBreak c then ⟨cs, p.index + 1, p.line + 1, 0⟩
    else ⟨cs, p.index + 1, p.line, p.column + 1⟩

def skip (p : Cursor) : Nat → Cursor
  | 0 => p
  | n + 1 => p.next.skip n

/-- The characters from here on that pass a test, and the cursor behind them. -/
def span (p : Cursor) (test : Char → Bool) : List Char × Cursor :=
  let taken := p.rest.takeWhile test
  (taken, p.skip taken.length)

def skipWhile (p : Cursor) (test : Char → Bool) : Cursor := (p.span test).2

def atEnd (p : Cursor) : Bool := p.rest.isEmpty

/-- Whether a character stands a number of places ahead. -/
def sees (p : Cursor) (c : Char) (ahead : Nat := 0) : Bool := p.rest[ahead]? == some c

/-- Whether a character that passes a test stands a number of places ahead. -/
def seesAny (p : Cursor) (test : Char → Bool) (ahead : Nat := 0) : Bool := p.rest[ahead]?.any test

/-- Whether the text or a line ends here. -/
def atLineEnd (p : Cursor) : Bool := p.rest.head?.all isBreak

/-- Whether a blank, the end of a line or the end of the text stands a number of places ahead. -/
def isFree (p : Cursor) (ahead : Nat := 0) : Bool :=
  p.rest[ahead]?.all fun c => isBlank c || isBreak c

/-- Whether a mark of three characters stands alone at the start of a line. -/
def seesMark (p : Cursor) (mark : String) : Bool :=
  p.column = 0 && mark.toList.isPrefixOf p.rest && p.isFree 3

/-- Whether a line here starts or ends a document. -/
def atDocumentMark (p : Cursor) : Bool := p.seesMark "---" || p.seesMark "..."

/-- Passes over what may stand behind a directive or a header on its line, and over the line end. -/
def nextLine? (p : Cursor) : Option Cursor :=
  let q := p.skipWhile isBlank
  let q := if q.sees '#' then q.skipWhile (!isBreak ·) else q
  if q.atLineEnd then some q.next else none

end Cursor

/-- The line ends among the characters between two pieces of text. -/
def breaksOf (gap : List Char) : List Char := gap.filter isBreak

/--
What blanks and line ends between two pieces of a folded text become: a single line feed turns into
a space, and of several the first is dropped. Blanks count only if no line ends among them.
-/
def foldGap (gap : List Char) : List Char :=
  match breaksOf gap with
  | [] => gap
  | ['\n'] => [' ']
  | '\n' :: more => more
  | breaks => breaks

end EntityRest.Yaml
