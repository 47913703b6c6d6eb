import EntityRest.Schema.Field
import EntityRest.Text.Email
import EntityRest.Time.Date

/-!
Checking one value that is present and not null against the definition of its field.

The result is the message of the first thing wrong, if any.
-/

namespace EntityRest.Validation

/-- The message of the limit that a measure breaks, the lower limit first. -/
def limitError? (d : FieldDef) (x : Double) (suffix : String) : Option String :=
  match d.min.filter (·.isAbove x), d.max.filter (·.isBelow x) with
  | some low, _ => some ("Must be at least " ++ low.text ++ suffix)
  | none, some high => some ("Must be at most " ++ high.text ++ suffix)
  | none, none => none

/-- For text, limits are on the number of characters. -/
def textError? (d : FieldDef) (s : String) : Option String :=
  if d.isEmail && !Text.isEmail s then some "Invalid email format"
  else limitError? d (Double.ofInt s.length) " characters"

/-- Checks a value of a scalar field. -/
def scalarError? (d : FieldDef) (v : Json) : Option String :=
  match d.type, v with
  | .string, .str s => textError? d s
  | .text, .str s => textError? d s
  | .string, _ => some "Must be a string"
  | .text, _ => some "Must be a string"
  | .int, .num n => if n.isWhole then limitError? d n.toDouble "" else some "Must be an integer"
  | .int, _ => some "Must be an integer"
  | .float, .num n => limitError? d n.toDouble ""
  | .float, _ => some "Must be a number"
  | .boolean, .bool _ => none
  | .boolean, _ => some "Must be a boolean"
  | .datetime, .str s => if Time.isDateTime s then none else some "Must be a valid date"
  | .datetime, .num n => if n.isWhole then none else some "Must be a valid date"
  | .datetime, _ => some "Must be a valid date"
  | .json, _ => none

/-- Checks the key of a belongsTo relation: a non-empty string or a whole number. -/
def foreignKeyError? : Json → Option String
  | .str s => if s.isEmpty then some "Must be a valid identifier" else none
  | .num n => if n.isWhole then none else some "Must be a valid identifier"
  | _ => some "Must be a valid identifier"

/-- Checks a value of a field, a column or a key. -/
def valueError? (d : FieldDef) (v : Json) : Option String :=
  if d.isRelation then foreignKeyError? v else scalarError? d v

end EntityRest.Validation
