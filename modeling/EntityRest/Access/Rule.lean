import EntityRest.Json.Basic
import EntityRest.Schema.Operation

/-!
Users, and the rules that decide what they may do.
-/

namespace EntityRest

/-- The caller of a request. -/
structure User where
  id : String
  role : Option String
  /-- Whatever else is known about the user. -/
  extra : Fields

namespace User

def ofId (id : String) : User := ⟨id, none, []⟩

def isAdmin (u : User) : Bool := u.role == some "admin"

/-- A user document has a string as `id` and, if any, a string or null as `role`. -/
def ofJson? (j : Json) : Option User := do
  let fields ← j.fields?
  let id ← (← fields.get? "id").string?
  let role ← match fields.get? "role" with
    | none => some none
    | some .null => some none
    | some (.str r) => some (some r)
    | some _ => none
  some ⟨id, role, (fields.erase "id").erase "role"⟩

def toJson (u : User) : Json :=
  let fields := u.extra.insert "id" (.str u.id)
  .obj (u.role.elim fields fun r => fields.insert "role" (.str r))

end User

/-- What a rule may look at. -/
structure RuleContext where
  entity : String
  operation : Operation
  user : Option User
  /-- The stored record; there is none for create and list. -/
  resource : Option Json
  input : Option Json

inductive Rule where
  | everyone
  | authenticated
  /-- The user owns the record: by the named key, or else by the owner key of the entity. -/
  | owner (field : Option String)
  | admin
  /-- A test of one's own; an error denies with its text. -/
  | custom (test : RuleContext → Except String Bool)

namespace Rule

/-- The rule of a name. -/
def ofName? (name : String) : Option Rule :=
  if name = "everyone" then some everyone
  else if name = "authenticated" then some authenticated
  else if name = "admin" then some admin
  else if name = "owner" then some (owner none)
  else if "owner:".toList.isPrefixOf name.toList then
    some (owner (some (String.ofList (name.toList.drop 6))))
  else none

/-- The name of a rule. -/
def name : Rule → String
  | everyone => "everyone"
  | authenticated => "authenticated"
  | admin => "admin"
  | owner none => "owner"
  | owner (some field) => "owner:" ++ field
  | custom _ => "custom"

end Rule

end EntityRest
