import EntityRest.Data.OrdMap
import EntityRest.Yaml.Token.Block
import EntityRest.Yaml.Token.Name
import EntityRest.Yaml.Token.Plain
import EntityRest.Yaml.Token.Quoted

/-!
The tokens of a text, found from left to right.

Whether a token is a key shows only at the colon behind it. So wherever a key may start, an empty
group of tokens is put down; a colon that comes in time fills the group with the mark of the key,
and with the start of a mapping if the key stands further right than the collections around it.
-/

namespace EntityRest.Yaml

/-- A place where a key may have started. -/
structure KeyPlace where
  /-- The group that is kept free for its mark. -/
  group : Nat
  index : Nat
  line : Nat
  column : Nat
  /-- Whether nothing but a key can stand there. -/
  isRequired : Bool

/-- What has been found up to a cursor. -/
structure Layout where
  cursor : Cursor
  groups : Array (List Token) := #[]
  /-- The columns of the open collections in block style, the innermost first. -/
  columns : List Nat := []
  /-- The last place for a key inside the innermost brackets. -/
  place : Option KeyPlace := none
  /-- The same for what is around each of the open brackets, the innermost first. -/
  outer : List (Option KeyPlace) := []
  /-- Whether a key may start at the next token. -/
  keyAllowed : Bool := true

namespace Layout

def inFlow (s : Layout) : Bool := !s.outer.isEmpty

/-- The first column that lies inside all open collections in block style. -/
def inner (s : Layout) : Nat := s.columns.head?.elim 0 (· + 1)

def emit (s : Layout) (ts : List Token) : Layout := { s with groups := s.groups.push ts }

/-- Puts down a token that ends at a cursor. -/
def token (s : Layout) (t : Token) (p : Cursor) : Layout := { s.emit [t] with cursor := p }

/-- Puts down a token of a few characters. -/
def mark (s : Layout) (t : Token) (length : Nat := 1) : Layout := s.token t (s.cursor.skip length)

/-- Ends the open collections in block style whose column passes a test. -/
def closeBlocks (s : Layout) (test : Nat → Bool) : Layout :=
  if s.inFlow then s
  else
    let closed := s.columns.takeWhile test
    { s.emit (closed.map fun _ => .blockEnd) with columns := s.columns.drop closed.length }

def closeAllBlocks (s : Layout) : Layout := s.closeBlocks fun _ => true

/-- Starts a collection in block style, if the column lies inside those that are open. -/
def openBlock (s : Layout) (t : Token) : Layout :=
  if !s.inFlow && s.inner ≤ s.cursor.column then
    { s.emit [t] with columns := s.cursor.column :: s.columns }
  else s

/-- Gives up the place for a key, unless a key is required there. -/
def dropPlace? (s : Layout) : Option Layout :=
  if s.place.any (·.isRequired) then none else some { s with place := none }

/-- Keeps the place of the next token for a key, if one may start there. -/
def keepPlace? (s : Layout) : Option Layout :=
  if s.keyAllowed then do
    let s ← s.dropPlace?
    let p := s.cursor
    let isRequired := !s.inFlow && s.inner = p.column + 1
    some
      { s.emit [] with place := some ⟨s.groups.size, p.index, p.line, p.column, isRequired⟩ }
  else some s

/-- Whether a key that started at a place has to have ended: it has a line and 1024 characters. -/
def KeyPlace.isPast (k : KeyPlace) (p : Cursor) : Bool :=
  k.line < p.line || k.index + 1024 < p.index

/-- Gives up the places whose keys have to have ended. -/
def dropPastPlaces? (s : Layout) : Option Layout :=
  let isPast (k : KeyPlace) : Bool := KeyPlace.isPast k s.cursor
  if (s.place :: s.outer).any fun place => place.any fun k => isPast k && k.isRequired then none
  else
    let keep (place : Option KeyPlace) : Option KeyPlace := place.filter (!isPast ·)
    some { s with place := keep s.place, outer := s.outer.map keep }

/--
Passes over blanks, comments and line ends up to the next token. Where a key may start in block
style a tab is no blank; behind a line end a key may start.
-/
def skipBlanks (flow : Bool) : Nat → Bool → Cursor → Bool × Cursor
  | 0, keyAllowed, p => (keyAllowed, p)
  | fuel + 1, keyAllowed, p =>
    let p := p.skipWhile fun c => c = ' ' || (c = '\t' && (flow || !keyAllowed))
    let p := if p.sees '#' then p.skipWhile (!isBreak ·) else p
    if p.seesAny isBreak then skipBlanks flow fuel (keyAllowed || !flow) p.next
    else (keyAllowed, p)

/-- Goes on to the next token, which ends what it is not indented enough for. -/
def toNextToken? (s : Layout) : Option Layout := do
  let p := s.cursor
  let p := if p.index = 0 && p.sees byteOrderMark then p.next else p
  let (keyAllowed, cursor) := skipBlanks s.inFlow (p.rest.length + 1) s.keyAllowed p
  let s ← dropPastPlaces? { s with keyAllowed, cursor }
  some (s.closeBlocks (cursor.column < ·))

/-- Ends all that is open at the end of the text. -/
def finish? (s : Layout) : Option Layout := s.closeAllBlocks.dropPlace?

/-- A directive or the mark of a document, which ends what is open in block style. -/
def outside? (s : Layout) (found : Option (Token × Cursor)) : Option Layout := do
  let s ← s.closeAllBlocks.dropPlace?
  let (t, p) ← found
  some { s.token t p with keyAllowed := false }

def openBracket? (s : Layout) (t : Token) : Option Layout := do
  let s ← s.keepPlace?
  some { s.mark t with outer := s.place :: s.outer, place := none, keyAllowed := true }

/-- A closing bracket; one that nothing has opened changes no more than a place for a key. -/
def closeBracket? (s : Layout) (t : Token) : Option Layout := do
  let s ← s.dropPlace?
  let s := match s.outer with
    | [] => s
    | place :: outer => { s with place, outer }
  some { s.mark t with keyAllowed := false }

def comma? (s : Layout) : Option Layout := do
  let s ← s.dropPlace?
  some { s.mark .comma with keyAllowed := true }

def dash? (s : Layout) : Option Layout :=
  if !s.inFlow && !s.keyAllowed then none
  else do
    let s ← (s.openBlock .blockSeqStart).dropPlace?
    some { s.mark .dash with keyAllowed := true }

/-- The mark of a key that is written out. -/
def key? (s : Layout) : Option Layout :=
  if !s.inFlow && !s.keyAllowed then none
  else do
    let s ← (s.openBlock .blockMapStart).dropPlace?
    some { s.mark .key with keyAllowed := !s.inFlow }

/-- Fills the group of a place with the mark of a key, and opens a mapping at its column. -/
def fillPlace (s : Layout) (k : KeyPlace) : Layout :=
  let opens := !s.inFlow && s.inner ≤ k.column
  { s with
    groups := s.groups.setIfInBounds k.group (if opens then [.blockMapStart, .key] else [.key])
    columns := if opens then k.column :: s.columns else s.columns
    place := none }

/-- The colon behind a key. -/
def value? (s : Layout) : Option Layout :=
  match s.place with
  | some k => some { (s.fillPlace k).mark .value with keyAllowed := false }
  | none =>
    if !s.inFlow && !s.keyAllowed then none
    else some { (s.openBlock .blockMapStart).mark .value with keyAllowed := !s.inFlow }

/-- A token behind which no key may start on the same line, though it may be one. -/
def content? (s : Layout) (found : Option (Token × Cursor)) : Option Layout := do
  let s ← s.keepPlace?
  let (t, p) ← found
  some { s.token t p with keyAllowed := false }

def quoted? (s : Layout) (double : Bool) : Option Layout :=
  let style := if double then ScalarStyle.doubleQuoted else .singleQuoted
  s.content? ((Quoted.text? double s.cursor).map fun (text, p) =>
    (.scalar style (String.ofList text), p))

def block? (s : Layout) (isFolded : Bool) : Option Layout := do
  let s ← s.dropPlace?
  let (text, p) ← Block.text? isFolded s.inner s.cursor
  let style := if isFolded then ScalarStyle.folded else .literal
  some { s.token (.scalar style (String.ofList text)) p with keyAllowed := true }

/-- A plain scalar; if it was passed up to another line, a key may start there. -/
def plain? (s : Layout) : Option Layout := do
  let s ← s.keepPlace?
  let (text, crossed, p) ← Plain.text? s.inFlow s.inner s.cursor
  some { s.token (.scalar .plain (String.ofList text)) p with keyAllowed := crossed }

/-- Reads the token at the cursor. -/
def step? (s : Layout) : Option Layout :=
  let p := s.cursor
  let flow := s.inFlow
  if p.column = 0 && p.sees '%' then s.outside? (Directive.token? p)
  else if p.seesMark "---" then s.outside? (some (.documentStart, p.skip 3))
  else if p.seesMark "..." then s.outside? (some (.documentEnd, p.skip 3))
  else if p.sees '[' then s.openBracket? .flowSeqStart
  else if p.sees '\x7b' then s.openBracket? .flowMapStart
  else if p.sees ']' then s.closeBracket? .flowSeqEnd
  else if p.sees '\x7d' then s.closeBracket? .flowMapEnd
  else if p.sees ',' then s.comma?
  else if p.sees '-' && p.isFree 1 then s.dash?
  else if p.sees '?' && (flow || p.isFree 1) then s.key?
  else if p.sees ':' && (flow || p.isFree 1) then s.value?
  else if p.sees '*' then s.content? ((anchorName? p).map fun (name, q) => (.reference name, q))
  else if p.sees '&' then s.content? ((anchorName? p).map fun (name, q) => (.anchor name, q))
  else if p.sees '!' then s.content? (Tag.token? flow p)
  else if p.sees '|' && !flow then s.block? false
  else if p.sees '>' && !flow then s.block? true
  else if p.sees '\'' then s.quoted? false
  else if p.sees '"' then s.quoted? true
  else if Plain.startsAt flow p then s.plain?
  else none

/-- Reads tokens up to the end of the text; every one takes a character at least. -/
def run? : Nat → Layout → Option Layout
  | 0, _ => none
  | fuel + 1, s => do
    let s ← s.toNextToken?
    if s.cursor.atEnd then s.finish? else run? fuel (← s.step?)

end Layout

/-- The tokens of a text. -/
def Token.ofText? (s : String) : Option (List Token) := do
  let cs := s.toList
  if cs.all isPrintable then
    let s ← Layout.run? (cs.length + 1) { cursor := Cursor.start (unifyBreaks cs) }
    some s.groups.toList.flatten
  else none

end EntityRest.Yaml
