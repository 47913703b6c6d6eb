import EntityRest.Effect.Action
import EntityRest.Json.Encode

/-!
Errors and warnings as JSON: a name for the kind of error, and its text.
-/

namespace EntityRest

instance : ToJson FieldError where
  toJson e := Json.object [("field", .str e.field), ("message", .str e.message)]

instance : ToJson ApiError where
  toJson e := Json.object <|
    [("error", .str e.code), ("message", .str e.message)] ++ Json.fieldIfAny "details" e.details?

/-- The name of the kind of error. -/
def DriverError.kind : DriverError → String
  | uniqueViolation .. => "UniqueViolation"
  | recordNotFound _ => "RecordNotFound"
  | foreignKeyViolation .. => "ForeignKeyViolation"
  | unsupported _ => "Unsupported"
  | backend _ => "Backend"

instance : ToJson DriverError where
  toJson e := Json.object [("error", .str e.kind), ("message", .str e.message)]

/-- The name of the kind of error. -/
def PluginError.kind : PluginError → String
  | duplicateFactory _ => "DuplicateFactory"
  | duplicateInstance _ => "DuplicateInstance"
  | factoryFailed .. => "FactoryFailed"
  | pluginNotFound _ => "PluginNotFound"
  | entityNotFound .. => "EntityNotFound"
  | localEntityNotFound _ => "LocalEntityNotFound"
  | invalidReference _ => "InvalidReference"
  | circularDependency _ => "CircularDependency"
  | missingDependency .. => "MissingDependency"
  | initFailed .. => "InitFailed"

/-- Options that a factory cannot read are an error of their own, and it has no text. -/
instance : ToJson PluginError where
  toJson
    | .factoryFailed _ .unreadableOptions => Json.object [("error", .str "FactoryOptionsInvalid")]
    | e => Json.object [("error", .str e.kind), ("message", .str e.message)]

/-- The name of the kind of error. -/
def EntityError.kind : EntityError → String
  | invalidName _ => "InvalidName"
  | duplicateField .. => "DuplicateField"
  | notBelongsTo .. => "NotBelongsTo"
  | unresolvedRelation .. => "UnresolvedRelation"

instance : ToJson EntityError where
  toJson e := Json.object [("error", .str e.kind), ("message", .str e.message)]

instance : ToJson Warning where
  toJson w := Json.object (("message", .str w.message) :: w.details.map fun (k, v) => (k, .str v))

end EntityRest
