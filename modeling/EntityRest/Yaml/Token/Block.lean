import EntityRest.Yaml.Token

/-!
Block scalars: whole lines of text, told apart from what follows by their indentation.
-/

namespace EntityRest.Yaml.Block

/-- What happens to the line ends behind the text of a block scalar. -/
inductive Chomp where
  /-- None of them counts. -/
  | strip
  /-- The first one counts. -/
  | clip
  | keep

/-- What stands behind the mark of a block scalar on its line. -/
structure Header where
  chomp : Chomp
  /-- How much further its lines are indented than what is around it. -/
  indentation : Option Nat

def chompMark? (p : Cursor) : Option Chomp :=
  if p.sees '-' then some .strip else if p.sees '+' then some .keep else none

/-- A digit other than zero. -/
def indentationMark? (p : Cursor) : Option Nat :=
  p.rest.head?.bind fun c => if '1' ≤ c && c ≤ '9' then some (c.toNat - 48) else none

/-- The header of a block scalar, and the cursor behind its line; its marks come in any order. -/
def header? (p : Cursor) : Option (Header × Cursor) := do
  let before := chompMark? p
  let p := if before.isSome then p.next else p
  let indentation := indentationMark? p
  let p := if indentation.isSome then p.next else p
  let after := if before.isNone && indentation.isSome then chompMark? p else none
  let p := if after.isSome then p.next else p
  some (⟨(before <|> after).getD .clip, indentation⟩, ← p.nextLine?)

/-- What lies before a line of a block scalar. -/
structure Margin where
  /-- The ends of the lines without text. -/
  breaks : List Char
  /-- The column of the widest of them, and of the line itself. -/
  width : Nat
  cursor : Cursor

/--
Passes over lines without text and over the indentation, which is spaces only: up to a column, or as
many as there are if none is given.
-/
def margin? (column : Option Nat) : Nat → Nat → Cursor → Option Margin
  | 0, _, _ => none
  | fuel + 1, width, p =>
    let spaces := (p.rest.takeWhile (· = ' ')).length
    let p := p.skip (column.elim spaces fun column => min spaces (column - p.column))
    let width := max width p.column
    if p.sees '\t' && column.all (p.column < ·) then none
    else if p.seesAny isBreak then
      (margin? column fuel width p.next).map fun m =>
        { m with breaks := p.rest.take 1 ++ m.breaks }
    else some ⟨[], width, p⟩

/-- What has been passed behind the last line with text. -/
structure Gap where
  /-- The end of that line. -/
  lineEnd : List Char
  /-- The ends of the lines without text that follow. -/
  breaks : List Char
  /-- Whether that line starts with a blank. -/
  isIndented : Bool
  cursor : Cursor

/--
What stands between two lines with text. Folding joins them by a space, unless one of them starts
with a blank or lines without text lie between them.
-/
def Gap.joint (g : Gap) (folded nextIsIndented : Bool) : List Char :=
  if folded && g.lineEnd = ['\n'] && !g.isIndented && !nextIsIndented then
    if g.breaks.isEmpty then [' '] else g.breaks
  else g.lineEnd ++ g.breaks

/-- The text of the lines that start at a column, and the gap behind them. -/
def lines? (folded : Bool) (column : Nat) : Nat → Gap → Option (List Char × Gap)
  | 0, _ => none
  | fuel + 1, g => do
    let p := g.cursor
    if p.column ≠ column || p.atEnd then some ([], g)
    else
      let isIndented := p.seesAny isBlank
      let (line, p) := p.span (!isBreak ·)
      let m ← margin? (some column) fuel 0 p.next
      let (text, last) ← lines? folded column fuel ⟨p.rest.take 1, m.breaks, isIndented, m.cursor⟩
      some (g.joint folded isIndented ++ line ++ text, last)

/-- The line ends that count behind the text. -/
def Chomp.ends (chomp : Chomp) (g : Gap) : List Char :=
  match chomp with
  | .strip => []
  | .clip => g.lineEnd
  | .keep => g.lineEnd ++ g.breaks

/--
The text of the block scalar whose mark is at a cursor, within collections that leave it the columns
from `inner` on. Without an indentation in its header the widest line before its text decides.
-/
def text? (folded : Bool) (inner : Nat) (p : Cursor) : Option (List Char × Cursor) := do
  let (header, p) ← header? p.next
  let fuel := p.rest.length + 1
  let column := header.indentation.map (inner - 1 + ·)
  let m ← margin? column fuel 0 p
  let column := column.getD (max m.width (max inner 1))
  let (text, last) ← lines? folded column fuel ⟨[], m.breaks, false, m.cursor⟩
  some (text ++ header.chomp.ends last, last.cursor)

end EntityRest.Yaml.Block
