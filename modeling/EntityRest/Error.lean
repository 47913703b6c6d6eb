import EntityRest.Json.Basic

/-!
The errors of each layer, with their texts, and how those of the lower layers become request errors.

A request error has a stable code, from which its status follows. `ApiError.body` is the document
that a client receives; in production the text of an internal error is kept from it.
-/

namespace EntityRest

/-- What is wrong with one field of an input. -/
structure FieldError where
  field : String
  message : String
deriving DecidableEq

/-- The errors with which a request can fail. -/
inductive ApiError where
  | validation (message : String) (details : List FieldError)
  | unauthorized (message : String)
  | forbidden (message : String)
  | notFound (message : String)
  | conflict (message : String)
  | internal (message : String)
deriving DecidableEq

namespace ApiError

def message : ApiError → String
  | validation m _ => m
  | unauthorized m => m
  | forbidden m => m
  | notFound m => m
  | conflict m => m
  | internal m => m

/-- The machine-readable name of the kind of error. -/
def code : ApiError → String
  | validation .. => "VALIDATION_ERROR"
  | unauthorized _ => "UNAUTHORIZED"
  | forbidden _ => "FORBIDDEN"
  | notFound _ => "NOT_FOUND"
  | conflict _ => "CONFLICT"
  | internal _ => "INTERNAL_ERROR"

/-- The HTTP status that goes with the kind of error. -/
def status : ApiError → Nat
  | validation .. => 400
  | unauthorized _ => 401
  | forbidden _ => 403
  | notFound _ => 404
  | conflict _ => 409
  | internal _ => 500

/-- The field errors of a validation error. -/
def details? : ApiError → Option (List FieldError)
  | validation _ details => some details
  | _ => none

def ofFieldErrors (details : List FieldError) : ApiError := validation "Validation failed" details

/-- The text that production shows in place of an internal error. -/
def hiddenMessage : String := "Internal server error"

/-- The message that a client sees. -/
def publicMessage (production : Bool) : ApiError → String
  | internal m => if production then hiddenMessage else m
  | e => e.message

/-- The document that a client receives. -/
def body (production : Bool) (e : ApiError) : Json :=
  let details := e.details?.map fun ds => Json.arr <| ds.map fun d =>
    Json.object [("field", .str d.field), ("message", .str d.message)]
  Json.object [("error", Json.object <|
    [("code", .str e.code), ("message", .str (e.publicMessage production))] ++
      details.toList.map (("details", ·)))]

def routeNotFound : ApiError := notFound "Route not found"

/-- A text that should have been a JSON document. -/
def invalidJson (reason : String) : ApiError := validation "Invalid JSON" [⟨"body", reason⟩]

end ApiError

/-- The errors that a storage driver reports. -/
inductive DriverError where
  | uniqueViolation (entity : String) (fields : List String)
  | recordNotFound (entity : String)
  | foreignKeyViolation (entity field : String)
  | unsupported (capability : String)
  | backend (message : String)
deriving DecidableEq

namespace DriverError

def message : DriverError → String
  | uniqueViolation entity fields =>
    "Unique constraint failed on " ++ entity ++ "." ++ ", ".intercalate fields
  | recordNotFound entity => entity ++ " record not found"
  | foreignKeyViolation entity field =>
    "Foreign key constraint failed on " ++ entity ++ "." ++ field
  | unsupported capability => "Driver does not support " ++ capability
  | backend m => m

/-- The request error that a client gets to see for a driver error. -/
def toApiError : DriverError → ApiError
  | uniqueViolation _ fields =>
    .conflict ("A record with this " ++ ", ".intercalate fields ++ " already exists")
  | recordNotFound entity => .notFound (entity ++ " not found")
  | foreignKeyViolation _ field =>
    .validation "Invalid relation"
      [⟨"relation", "Related record for '" ++ field ++ "' does not exist"⟩]
  | e => .internal e.message

end DriverError

/-- What code outside this library may fail with: a request error, or a bare text. -/
inductive Failure where
  | api (e : ApiError)
  | text (message : String)
deriving DecidableEq

namespace Failure

def message : Failure → String
  | api e => e.message
  | text m => m

/-- A request error stays what it is; a bare text is an internal error. -/
def toApiError : Failure → ApiError
  | api e => e
  | text m => .internal m

end Failure

/-- Why a factory made no plugin. -/
inductive FactoryFailure where
  | rejected (source : Failure)
  /-- The options are not of the shape that the factory reads. -/
  | unreadableOptions
deriving DecidableEq

def FactoryFailure.message : FactoryFailure → String
  | rejected source => source.message
  | unreadableOptions => "options have the wrong shape"

/-- The errors of putting plugins together; they end the start of an application. -/
inductive PluginError where
  | duplicateFactory (id : String)
  | duplicateInstance (id : String)
  | factoryFailed (id : String) (source : FactoryFailure)
  | pluginNotFound (id : String)
  | entityNotFound (plugin entity : String)
  | localEntityNotFound (entity : String)
  | invalidReference (reference : String)
  | circularDependency (plugin : String)
  | missingDependency (plugin dependency : String)
  | initFailed (plugin : String) (source : Failure)
deriving DecidableEq

namespace PluginError

def message : PluginError → String
  | duplicateFactory id => "Plugin factory \"" ++ id ++ "\" is already registered"
  | duplicateInstance id => "Plugin \"" ++ id ++ "\" is already registered"
  | factoryFailed id source => "Plugin factory \"" ++ id ++ "\" failed: " ++ source.message
  | pluginNotFound id => "Plugin \"" ++ id ++ "\" not found"
  | entityNotFound plugin entity =>
    "Entity \"" ++ entity ++ "\" not found in plugin \"" ++ plugin ++ "\""
  | localEntityNotFound entity => "Entity \"" ++ entity ++ "\" not found"
  | invalidReference reference => "Invalid entity reference \"" ++ reference ++ "\""
  | circularDependency plugin =>
    "Circular dependency detected involving plugin \"" ++ plugin ++ "\""
  | missingDependency plugin dependency =>
    "Plugin \"" ++ plugin ++ "\" depends on missing plugin \"" ++ dependency ++ "\""
  | initFailed plugin source =>
    "Failed to initialize plugin \"" ++ plugin ++ "\": " ++ source.message

/-- The message of the error, followed by that of its cause. -/
def chain (e : PluginError) : List String :=
  e.message :: match e with
    | factoryFailed _ source => [source.message]
    | initFailed _ source => [source.message]
    | _ => []

def toApiError (e : PluginError) : ApiError := .internal e.message

end PluginError

/-- The errors of defining an entity. -/
inductive EntityError where
  | invalidName (name : String)
  | duplicateField (entity field : String)
  | notBelongsTo (entity field : String)
  | unresolvedRelation (entity field : String) (source : PluginError)
deriving DecidableEq

namespace EntityError

def message : EntityError → String
  | invalidName name =>
    "Invalid entity name \"" ++ name ++
      "\": must start with a lowercase letter and contain only letters and digits"
  | duplicateField entity field =>
    "Field \"" ++ field ++ "\" is declared more than once on entity \"" ++ entity ++ "\""
  | notBelongsTo entity field =>
    "Field \"" ++ field ++ "\" on entity \"" ++ entity ++ "\" is not a belongsTo relation"
  | unresolvedRelation entity field source =>
    "Relation \"" ++ field ++ "\" on entity \"" ++ entity ++ "\" could not be resolved: " ++
      source.message

def toApiError (e : EntityError) : ApiError := .internal e.message

end EntityError

end EntityRest
