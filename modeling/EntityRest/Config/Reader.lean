import EntityRest.Config.Basic
import EntityRest.Document.Format
import EntityRest.Yaml.Format

/-!
Reading a configuration from a document; what is not there keeps its default.
-/

namespace EntityRest

open Format

variable {m : Type → Type} [Monad m] [MonadExceptOf Unit m] {δ : Type}

def CorsConfig.read (f : Format m δ) (d : δ) : m CorsConfig := do
  let get ← f.record ["enabled", "allowedOrigins", "allowedMethods", "allowedHeaders", "maxAge"] d
  let standard : CorsConfig := {}
  let strings (key : String) (default : List String) :=
    orElse default (f.listOf f.string) (get key)
  pure
    { enabled := ← orElse standard.enabled f.bool (get "enabled")
      allowedOrigins := ← strings "allowedOrigins" standard.allowedOrigins
      allowedMethods := ← strings "allowedMethods" standard.allowedMethods
      allowedHeaders := ← strings "allowedHeaders" standard.allowedHeaders
      maxAge := ← orElse standard.maxAge (f.nullable f.nat) (get "maxAge") }

def Config.read (f : Format m δ) (d : δ) : m Config := do
  let get ← f.record ["environment", "cors", "securityHeaders", "serviceName"] d
  let standard : Config := {}
  pure
    { environment := ←
        orElse standard.environment (f.named Environment.ofName?) (get "environment")
      cors := ← orElse standard.cors (CorsConfig.read f) (get "cors")
      securityHeaders := ← orElse standard.securityHeaders f.bool (get "securityHeaders")
      serviceName := ← orElse standard.serviceName f.string (get "serviceName") }

def Config.ofJson? (j : Json) : Option Config := Config.read Format.json j

/-- The configuration of a YAML text; a text without contents leaves every default. -/
def Config.ofYaml? (text : String) : Option Config := do
  match ← Yaml.Document.ofText? text with
  | none => some {}
  | some d => d.read? Config.read

end EntityRest
