import EntityRest.Plugin.Handler

/-!
The middleware that every application starts with: cross-site rules and security headers.
-/

namespace EntityRest.Middleware

/-- A middleware that changes an exchange and neither fails nor has effects. -/
def pureStep (name : String) (f : Exchange → Flow × Exchange) : Middleware :=
  { name, run := fun x => pure (.ok (f x).1, (f x).2) }

def stageHeader (x : Exchange) (name value : String) : Exchange :=
  { x with staged := { x.staged with headers := x.staged.headers.set name value } }

/-- Stages a header if its value can be sent at all. -/
def stageValidHeader (x : Exchange) (name value : String) : Exchange :=
  if Headers.isValidValue value then stageHeader x name value else x

/-- The origin to answer with: a star if it is allowed, else the origin of the request if it is. -/
def allowedOrigin? (c : CorsConfig) (origin : Option String) : Option String :=
  if "*" ∈ c.allowedOrigins then some "*" else origin.filter (· ∈ c.allowedOrigins)

/-- The headers for an allowed origin. -/
def stageCors (c : CorsConfig) (x : Exchange) : Exchange :=
  match (allowedOrigin? c (x.request.header? "origin")).filter Headers.isValidValue with
  | none => x
  | some origin =>
    let x := stageHeader x "access-control-allow-origin" origin
    let x := stageValidHeader x "access-control-allow-methods" (", ".intercalate c.allowedMethods)
    let x := stageValidHeader x "access-control-allow-headers" (", ".intercalate c.allowedHeaders)
    c.maxAge.elim x fun n => stageHeader x "access-control-max-age" (toString n)

/-- Stages the cross-site headers, and answers requests that only ask what is allowed. -/
def cors (c : CorsConfig) : Middleware :=
  pureStep "cors" fun x =>
    let x := stageCors c x
    if x.request.method = "OPTIONS" then
      (.stop, { x with staged := { x.staged with status := 204, body := .null } })
    else (.next, x)

def securityHeaderList : List (String × String) :=
  [("x-content-type-options", "nosniff"), ("x-frame-options", "DENY"),
    ("referrer-policy", "strict-origin-when-cross-origin"), ("x-xss-protection", "0")]

def securityHeaders : Middleware :=
  pureStep "security-headers" fun x =>
    (.next, securityHeaderList.foldl (fun x (name, value) => stageHeader x name value) x)

/-- The middleware that a configuration asks for. -/
def defaults (c : Config) : List Middleware :=
  (if c.cors.enabled then [cors c.cors] else []) ++
    if c.securityHeaders then [securityHeaders] else []

end EntityRest.Middleware
