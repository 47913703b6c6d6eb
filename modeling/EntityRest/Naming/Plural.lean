/-!
Regular English plurals, from which the default routes of entities are made.

Words are read from their end: the functions on characters take and return words backwards.
`singular` undoes `plural` for the words those rules produce; other words may lose letters.
-/

namespace EntityRest.Naming

/-- The vowels of both cases. -/
def isVowel (c : Char) : Bool := "aeiouAEIOU".toList.contains c

/-- Whether a word, read backwards, ends in a sound that takes `es`: s, x, z, ch or sh. -/
def isSibilant : List Char → Bool
  | 's' :: _ => true
  | 'x' :: _ => true
  | 'z' :: _ => true
  | 'h' :: 'c' :: _ => true
  | 'h' :: 's' :: _ => true
  | _ => false

/-- Ends in a consonant and `y`, read backwards. -/
def endsInConsonantY : List Char → Bool
  | 'y' :: c :: _ => !isVowel c
  | _ => false

/-- The plural of a word read backwards. -/
def pluralRev (w : List Char) : List Char :=
  if w = [] then []
  else if endsInConsonantY w then 's' :: 'e' :: 'i' :: w.drop 1
  else if isSibilant w then 's' :: 'e' :: w
  else 's' :: w

/-- The word less `ies`, read backwards, if something is left of it. -/
def stemOfIes? : List Char → Option (List Char)
  | 's' :: 'e' :: 'i' :: c :: w => some (c :: w)
  | _ => none

/-- The word less `es`, read backwards, if what is left takes `es`. -/
def stemOfEs? : List Char → Option (List Char)
  | 's' :: 'e' :: w => if isSibilant w then some w else none
  | _ => none

/-- The word less `s`, read backwards, if what is left is not empty and has no `s` at its end. -/
def stemOfS? : List Char → Option (List Char)
  | 's' :: c :: w => if c = 's' then none else some (c :: w)
  | _ => none

/-- The singular of a word read backwards. -/
def singularRev (w : List Char) : List Char :=
  match stemOfIes? w with
  | some stem => 'y' :: stem
  | none => (stemOfEs? w <|> stemOfS? w).getD w

def plural (s : String) : String := String.ofList (pluralRev s.toList.reverse).reverse

def singular (s : String) : String := String.ofList (singularRev s.toList.reverse).reverse

end EntityRest.Naming
