import EntityRest.Access.Rule
import EntityRest.Error
import EntityRest.Http.Headers
import EntityRest.Text.Blank

/-!
Requests and responses, independent of the protocol that carries them.
-/

namespace EntityRest

structure Request where
  method : String
  path : String
  /-- The parts of the path that a route pattern names. -/
  params : OrdMap String String
  query : OrdMap String String
  body : Json
  headers : Headers
  user : Option User
  /-- What middleware and handlers tell each other about this request. -/
  context : Fields

/-- The parts of a path between slashes; empty ones do not count. -/
def pathSegments (path : String) : List String :=
  ((Text.splitOn '/' path.toList).filter (· ≠ [])).map String.ofList

namespace Request

/-- A request without parameters, body and user. -/
def ofPath (method path : String) : Request := ⟨method, path, ∅, ∅, .null, ∅, none, []⟩

def segments (r : Request) : List String := pathSegments r.path

/-- The first value of a header, if it can be read as text. -/
def header? (r : Request) (name : String) : Option String := r.headers.text? name

end Request

structure Response where
  status : Nat
  body : Json
  headers : Headers

namespace Response

def ofBody (status : Nat) (body : Json) : Response := ⟨status, body, ∅⟩

def ok (body : Json) : Response := ofBody 200 body

def created (body : Json) : Response := ofBody 201 body

def noContent : Response := ofBody 204 .null

/-- The response that tells a client of an error. -/
def ofError (production : Bool) (e : ApiError) : Response := ofBody e.status (e.body production)

end Response

end EntityRest
