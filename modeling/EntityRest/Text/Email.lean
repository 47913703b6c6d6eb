import EntityRest.Text.Blank

/-!
Email addresses of the form `local@domain.tld`.
-/

namespace EntityRest.Text

/-- Whether a dot stands in a text, but not only at its two ends. -/
def hasInnerDot (cs : List Char) : Bool := ((cs.drop 1).dropLast).contains '.'

/--
One `@` with something before it and a dot inside what follows it; no blanks anywhere.
-/
def isEmail (s : String) : Bool :=
  match splitOn '@' s.toList with
  | [mailbox, domain] =>
    !mailbox.isEmpty && hasInnerDot domain && s.toList.all fun c => !isBlank c
  | _ => false

end EntityRest.Text
