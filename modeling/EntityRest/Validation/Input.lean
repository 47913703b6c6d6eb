import EntityRest.Schema.Entity
import EntityRest.Validation.Value

/-!
Validating the document of a create or an update.

Only the input keys of the entity are looked at, and only valid values are taken over, so a client
cannot set what it was not meant to set. The owner key is never taken from the document.
-/

namespace EntityRest

/-- What a document is worth: its errors, and the fields that are present and valid. -/
structure ValidInput where
  errors : List FieldError
  data : Fields

namespace ValidInput

def isValid (v : ValidInput) : Bool := v.errors.isEmpty

def addError (v : ValidInput) (key message : String) : ValidInput :=
  { v with errors := v.errors ++ [⟨key, message⟩] }

def addField (v : ValidInput) (key : String) (value : Json) : ValidInput :=
  { v with data := v.data.insert key value }

/-- The valid fields, unless there is an error. -/
def toExcept (v : ValidInput) : Except ApiError Fields :=
  if v.isValid then .ok v.data else .error (.ofFieldErrors v.errors)

end ValidInput

namespace Validation

/-- Whether a key may be left out: by an update always, by a create if nothing is required. -/
def mayOmit (op : Operation) (d : FieldDef) : Bool :=
  op ≠ .create || d.optional || d.default.isSome

/-- Takes one input key into account. -/
def checkField (op : Operation) (input : Fields) (v : ValidInput) (key : String) (d : FieldDef) :
    ValidInput :=
  match input.get? key with
  | none => if mayOmit op d then v else v.addError key "Required"
  | some .null => if d.optional then v.addField key .null else v.addError key "Cannot be null"
  | some value =>
    match valueError? d value with
    | none => v.addField key value
    | some message => v.addError key message

/-- The input keys that clients may set: all but the owner key. -/
def clientFields (e : Entity) : List (String × FieldDef) :=
  e.inputFields.filter fun (key, _) => some key ≠ e.ownerField

def checkFields (e : Entity) (op : Operation) (input : Fields) : ValidInput :=
  (clientFields e).foldl (fun v (key, d) => checkField op input v key d) ⟨[], []⟩

/-- Validates the document of a create or an update. -/
def input (e : Entity) (op : Operation) (body : Json) : ValidInput :=
  match body with
  | .obj fields => checkFields e op fields
  | _ => ⟨[⟨"body", "Expected a JSON object"⟩], []⟩

end Validation

end EntityRest
