import EntityRest.Http.FormQuery
import EntityRest.Http.Target
import EntityRest.Json.Printer
import EntityRest.Json.Reader
import EntityRest.Service.App

/-!
The HTTP side of an application: requests with a URI and a text body, responses with a text body.

The path is passed on as it is sent, the query is decoded, and a body has to be JSON unless it is
blank.
-/

namespace EntityRest.Rest

/-- A request as it arrives. -/
structure Incoming where
  method : String
  uri : String
  headers : Headers
  body : String

/-- A response as it is sent. -/
structure Outgoing where
  status : Nat
  headers : Headers
  body : String

/-- The user that a gateway names in the headers of a request. -/
def userOfHeaders (h : Headers) : Option User :=
  match h.text? "x-user-id" with
  | none => none
  | some id => if id.isEmpty then none else some ⟨id, h.text? "x-user-role", []⟩

/-- Whether a body counts as absent: only blanks of ASCII, the vertical tab excepted. -/
def isBlankBody (body : String) : Bool :=
  body.toList.all fun c => c = ' ' || c = '\t' || c = '\n' || c = '\r' || c.toNat = 12

/-- The document of a body. -/
def bodyOf (body : String) : Except ApiError Json :=
  if isBlankBody body then .ok .null
  else match Json.ofText? body with
    | some j => .ok j
    | none => .error (.ofFieldErrors [⟨"body", "Invalid JSON: not a JSON document"⟩])

/-- Whether a response has a body to send. -/
def hasBody (r : Response) : Bool := r.status ≠ 204 && !r.body.isNull

/-- The response as it is sent; a body is announced as JSON, ahead of the response's own headers. -/
def outgoing (r : Response) : Outgoing :=
  let own := if hasBody r then Headers.set ∅ "content-type" "application/json" else ∅
  { status := r.status
    headers := r.headers.pairs.foldl (fun h (name, value) => h.addUnder name value) own
    body := if hasBody r then r.body.text else "" }

/-- The request that an application handles. -/
def request (userOf : Headers → Option User) (i : Incoming) (body : Json) : Request :=
  let target := Http.Target.ofUri i.uri
  { Request.ofPath i.method target.path with
    query := FormQuery.params target.query
    body := body
    headers := i.headers
    user := userOf i.headers }

/-- Answers a request; a body that is no JSON is refused before the application sees the request. -/
def respond (app : App) (userOf : Headers → Option User) (i : Incoming) : StateM Env Outgoing := do
  match bodyOf i.body with
  | .error e => pure (outgoing (Response.ofError app.isProduction e))
  | .ok body => outgoing <$> app.handle (request userOf i body)

/-- Whether a response has no body whatever it says: one to `HEAD`, and a good one to `CONNECT`. -/
def isBodiless (method : String) (status : Nat) : Bool :=
  method = "HEAD" || (method = "CONNECT" && 200 ≤ status && status < 300)

/-- What goes over the wire. -/
def serve (app : App) (userOf : Headers → Option User) (i : Incoming) : StateM Env Outgoing := do
  let out ← respond app userOf i
  pure (if isBodiless i.method out.status then { out with body := "" } else out)

end EntityRest.Rest
