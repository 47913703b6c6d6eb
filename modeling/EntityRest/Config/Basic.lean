import EntityRest.Effect.Action
import EntityRest.Text.Blank

/-!
The configuration of an application.
-/

namespace EntityRest

/-- The mode in which an application runs. -/
inductive Environment where
  | development
  | production
  | test
deriving DecidableEq

namespace Environment

def all : List Environment := [development, production, test]

def name : Environment → String
  | development => "development"
  | production => "production"
  | test => "test"

def ofName? (s : String) : Option Environment := all.find? (·.name == s)

/-- The mode that a setting names: in any case, with blanks around it, and with two short forms. -/
def ofSetting? (s : String) : Option Environment :=
  let word := String.ofList ((Text.trimChars s.toList).map Char.toLower)
  if word = "dev" then some development
  else if word = "prod" then some production
  else ofName? word

end Environment

/-- Which origins, methods and headers browsers may use across sites. -/
structure CorsConfig where
  enabled : Bool := true
  /-- A star allows every origin. -/
  allowedOrigins : List String := ["*"]
  allowedMethods : List String := ["GET", "POST", "PUT", "PATCH", "DELETE", "OPTIONS"]
  allowedHeaders : List String := ["Content-Type", "Authorization"]
  /-- For how many seconds a browser may keep the answer. -/
  maxAge : Option Nat := some 86400
deriving DecidableEq

structure Config where
  environment : Environment := .development
  cors : CorsConfig := {}
  securityHeaders : Bool := true
  /-- The name that the health check tells. -/
  serviceName : String := "zapi"
deriving DecidableEq

namespace Config

instance : Inhabited Config := ⟨{}⟩

def isProduction (c : Config) : Bool := c.environment = .production

/-- The name of the variable that sets the mode. -/
def modeVariable : String := "ZAPI_ENV"

/-- Lets the value of the mode variable, if it is set, win over the configured mode. -/
def withMode (c : Config) (setting : Option String) : Config × List Warning :=
  match setting with
  | none => (c, [])
  | some s =>
    match Environment.ofSetting? s with
    | some mode => ({ c with environment := mode }, [])
    | none => (c, [⟨"ignoring unknown " ++ modeVariable, [("value", s)]⟩])

end Config

end EntityRest
