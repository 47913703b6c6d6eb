import EntityRest.Yaml.Scalar
import EntityRest.Yaml.Token

/-!
Scalars in quotes. Single quotes have one escape, a quote written twice; double quotes have escapes
for any character and for line ends that do not count.
-/

namespace EntityRest.Yaml.Quoted

/-- Escapes of one letter, with the codes they stand for. -/
def escapes : List (Char × Nat) :=
  [('0', 0), ('a', 7), ('b', 8), ('t', 9), ('\t', 9), ('n', 10), ('v', 11), ('f', 12), ('r', 13),
    ('e', 27), (' ', 32), ('"', 34), ('/', 47), ('\\', 92), ('N', 0x85), ('_', 0xA0),
    ('L', 0x2028), ('P', 0x2029)]

/-- How many hexadecimal digits follow the letter of an escape by code. -/
def codeDigits? (c : Char) : Option Nat := [('x', 2), ('u', 4), ('U', 8)].lookup c

/-- The character of an escape behind its backslash, and how many characters spell it. -/
def escape? : List Char → Option (Char × Nat)
  | [] => none
  | c :: cs =>
    match codeDigits? c with
    | none => (escapes.lookup c).map fun code => (Char.ofNat code, 1)
    | some digits => do
      let code ← natInBase? 16 (cs.take digits)
      if (cs.take digits).length = digits && code.isValidChar then
        some (Char.ofNat code, digits + 1)
      else none

/-- The rest of a scalar in quotes, and the cursor behind its last quote. -/
def textFrom? (double : Bool) : Nat → Cursor → Option (List Char × Cursor)
  | 0, _ => none
  | fuel + 1, p => do
    let quote := if double then '"' else '\''
    match p.rest with
    | [] => none
    | c :: cs =>
      if p.atDocumentMark then none
      else if c = quote then
        if !double && p.sees quote 1 then
          let (text, last) ← textFrom? double fuel (p.skip 2)
          some (quote :: text, last)
        else some ([], p.next)
      else if double && c = '\\' then
        if p.seesAny isBreak 1 then
          let (gap, next) := (p.skip 2).span fun c => isBlank c || isBreak c
          let (text, last) ← textFrom? double fuel next
          some (breaksOf gap ++ text, last)
        else
          let (d, length) ← escape? cs
          let (text, last) ← textFrom? double fuel (p.skip (length + 1))
          some (d :: text, last)
      else if isBlank c || isBreak c then
        let (gap, next) := p.span fun c => isBlank c || isBreak c
        let (text, last) ← textFrom? double fuel next
        some (foldGap gap ++ text, last)
      else
        let (text, last) ← textFrom? double fuel p.next
        some (c :: text, last)

/-- The text of the scalar whose first quote is at a cursor. -/
def text? (double : Bool) (p : Cursor) : Option (List Char × Cursor) :=
  textFrom? double (p.rest.length + 1) p.next

end EntityRest.Yaml.Quoted
