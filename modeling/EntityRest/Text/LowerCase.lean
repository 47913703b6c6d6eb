import EntityRest.Text.CaseTable

/-!
Lower case of any text.

Every capital letter becomes its small letter. Two letters are special: the capital I with a dot
becomes two characters, and a sigma has a form of its own at the end of a word.
-/

namespace EntityRest.Text

/-- The small letter of a capital one; other characters stay. -/
def lowerChar (c : Char) : Char :=
  if c.toNat < 128 then c.toLower
  else match CaseTable.runs.find? fun r =>
      r.first ≤ c.toNat && c.toNat ≤ r.last && (c.toNat - r.first) % r.step == 0 with
    | some r => Char.ofNat (c.toNat + r.shift).toNat
    | none => c

def isIgnorable (c : Char) : Bool := CaseTable.inRanges CaseTable.ignorable c.toNat

def isCased (c : Char) : Bool := CaseTable.inRanges CaseTable.cased c.toNat

/-- Whether the first character that counts for words is a letter with cases. -/
def startsCased (cs : List Char) : Bool := (cs.dropWhile isIgnorable).head?.any isCased

/-- The small letters of a text; `before` are the characters before it, backwards. -/
def lowerChars : List Char → List Char → List Char
  | _, [] => []
  | before, c :: cs =>
    (if c.toNat = 0x3A3 then
      [if startsCased before && !startsCased cs then Char.ofNat 0x3C2 else Char.ofNat 0x3C3]
    else if c.toNat = 0x130 then ['i', Char.ofNat 0x307]
    else [lowerChar c]) ++ lowerChars (c :: before) cs

def lower (s : String) : String := String.ofList (lowerChars [] s.toList)

end EntityRest.Text
