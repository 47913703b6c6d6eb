import EntityRest.Yaml.Token

/-!
Plain scalars, which nothing encloses: they end where something else has to start.
-/

namespace EntityRest.Yaml.Plain

/-- Whether a plain scalar starts at a cursor. -/
def startsAt (flow : Bool) (p : Cursor) : Bool :=
  match p.rest with
  | [] => false
  | c :: _ =>
    if c = '-' then !p.seesAny isBlank 1
    else if c = '?' || c = ':' then !flow && !p.isFree 1
    else
      !(isBlank c || isBreak c || isFlowMark c || "#&*!|>'\"%@".toList.contains c ||
        c.toNat = 0x60)

/--
The characters up to a blank or a line end, or up to what ends a scalar: a colon before a blank, or
a mark of the flow style. In that style a colon right before a mark is refused.
-/
def run? (flow : Bool) : List Char → Option (List Char)
  | [] => some []
  | c :: cs =>
    if isBlank c || isBreak c || (flow && isFlowMark c) then some []
    else if c = ':' then
      if flow && cs.head?.any fun d => isFlowMark d || d = '?' then none
      else if cs.head?.all fun d => isBlank d || isBreak d then some []
      else (run? flow cs).map (c :: ·)
    else (run? flow cs).map (c :: ·)

/-- Whether a tab stands left of a column on one of the lines that start in a gap. -/
def hasTabBefore (min : Nat) : Nat → List Char → Bool
  | _, [] => false
  | column, c :: cs =>
    if isBreak c then hasTabBefore min 0 cs
    else (c = '\t' && column < min) || hasTabBefore min (column + 1) cs

/--
The rest of a plain scalar behind a gap, whether a line end was passed behind its text, and the
cursor there. In block style its lines reach to the column `min` at least.
-/
def textFrom? (flow : Bool) (min : Nat) :
    Nat → List Char → Cursor → Option (List Char × Bool × Cursor)
  | 0, _, _ => none
  | fuel + 1, gap, p => do
    let crossed := gap.any isBreak
    if p.atDocumentMark || p.sees '#' then some ([], crossed, p)
    else
      let run ← run? flow p.rest
      if run.isEmpty then some ([], crossed, p)
      else
        let text := foldGap gap ++ run
        let (gap, next) := (p.skip run.length).span fun c => isBlank c || isBreak c
        if gap.isEmpty then some (text, false, next)
        else if hasTabBefore min 0 (gap.dropWhile (!isBreak ·)) then none
        else if !flow && next.column < min then some (text, gap.any isBreak, next)
        else
          let (more, crossed, last) ← textFrom? flow min fuel gap next
          some (text ++ more, crossed, last)

/-- The plain scalar at a cursor. -/
def text? (flow : Bool) (min : Nat) (p : Cursor) : Option (List Char × Bool × Cursor) :=
  textFrom? flow min (p.rest.length + 1) [] p

end EntityRest.Yaml.Plain
