import EntityRest.Describe.Error
import EntityRest.Plugin.Reference
import EntityRest.Query.List

/-!
Reading blueprints: JSON documents that declare entities, plugins and what they do.

A part of a blueprint is an object. The accessors here read its fields; a field that is missing
where one is needed, or of the wrong kind, makes the blueprint malformed. Entities may refer to
those of registered plugins, so reading works on a registry.
-/

namespace EntityRest

/-- Why a blueprint cannot be read, or declares something that is not valid. -/
inductive BlueprintError where
  | malformed
  | entity (source : EntityError)
  | plugin (source : PluginError)
  /-- A text is not YAML, or not of the shape that is needed. -/
  | unreadableYaml
  | unreadablePatch
  | unreadableConfig

instance : ToJson BlueprintError where
  toJson
    | .malformed => Json.object [("error", .str "BadInput")]
    | .entity e => toJson e
    | .plugin e => toJson e
    | .unreadableYaml => Json.object [("error", .str "YamlError")]
    | .unreadablePatch => Json.object [("error", .str "InvalidPatch")]
    | .unreadableConfig => Json.object [("error", .str "InvalidConfig")]

namespace Blueprint

/-- Reading a part of a blueprint. -/
abbrev Read := ExceptT BlueprintError (StateM Registry)

variable {α : Type}

def need (o : Option α) : Read α := o.elim (throw .malformed) pure

def orThrow (e : BlueprintError) (o : Option α) : Read α := o.elim (throw e) pure

def field (j : Json) (k : String) : Read Json := need (j.field? k)

/-- A field that is there and not null. -/
def given? (j : Json) (k : String) : Option Json := (j.field? k).filter fun v => !v.isNull

def text (j : Json) (k : String) : Read String := do need (← field j k).string?

def text? (j : Json) (k : String) : Option String := (given? j k).bind Json.string?

def bool? (j : Json) (k : String) : Option Bool :=
  match given? j k with
  | some (.bool b) => some b
  | _ => none

/-- A field that is off unless it says otherwise. -/
def flag (j : Json) (k : String) : Bool := (bool? j k).getD false

def nat? (j : Json) (k : String) : Option Nat :=
  match given? j k with
  | some (.num (.int n)) => some n.toNat
  | _ => none

def items (j : Json) (k : String) : List Json := ((j.field? k).bind Json.items?).getD []

def texts (j : Json) (k : String) : List String := (items j k).filterMap Json.string?

/-- A key with its value, written as a list of the two. -/
def keyed : Json → Read (String × Json)
  | .arr [.str k, v] => pure (k, v)
  | _ => throw .malformed

/-- A list of keys with values, each read by what its key is. -/
def keyedItems (j : Json) (k : String) (read : String → Json → Read α) :
    Read (List (String × α)) :=
  (items j k).mapM fun p => do
    let (key, v) ← keyed p
    pure (key, ← read key v)

def textPair (j : Json) : Read (String × String) := do
  let (k, v) ← keyed j
  pure (k, ← need v.string?)

def textPairs (j : Json) (k : String) : Read (List (String × String)) := (items j k).mapM textPair

/-- A part of a blueprint that may be missing or null. -/
def optional (j : Json) (k : String) (read : Json → Read α) : Read (Option α) :=
  match given? j k with
  | some v => some <$> read v
  | none => pure none

def ofEntity (r : Except EntityError α) : Read α := ExceptT.mk (pure (r.mapError .entity))

def ofPlugin (r : Except PluginError α) : Read α := ExceptT.mk (pure (r.mapError .plugin))

/-- Work on the registry whose error is one of the blueprint. -/
def onRegistry {ε : Type} (wrap : ε → BlueprintError) (act : StateM Registry (Except ε α)) :
    Read α :=
  ExceptT.mk do
    let r ← act
    pure (r.mapError wrap)

def user (j : Json) : Read User := need (User.ofJson? j)

def operation (name : String) : Read Operation := need (Operation.ofName? name)

def condition (j : Json) : Read Condition :=
  match j.field? "literal" with
  | some v => pure (.literal v)
  | none => do
    let ops ← keyedItems j "ops" fun _ v => pure v
    pure (.ops (OrdMap.ofList (← ops.mapM fun (name, v) => do
      pure (← need (FilterOp.ofName? name), v))))

def filter (j : Json) (k : String) : Read Filter :=
  OrdMap.ofList <$> keyedItems j k fun _ => condition

/-- A request error by its kind; the text of the kind "validation" has a default of its own. -/
def apiError (j : Json) : Read ApiError := do
  let message := (text? j "message").getD "failed"
  match ← text j "kind" with
  | "validation" =>
    let details ← textPairs j "details"
    pure (.validation ((text? j "message").getD "Validation failed")
      (details.map fun (field, message) => ⟨field, message⟩))
  | "unauthorized" => pure (.unauthorized message)
  | "forbidden" => pure (.forbidden message)
  | "notFound" => pure (.notFound message)
  | "conflict" => pure (.conflict message)
  | "internal" => pure (.internal message)
  | _ => throw .malformed

def driverError (j : Json) : Read DriverError := do
  match ← text j "kind" with
  | "UniqueViolation" => pure (.uniqueViolation (← text j "entity") (texts j "fields"))
  | "RecordNotFound" => pure (.recordNotFound (← text j "entity"))
  | "ForeignKeyViolation" => pure (.foreignKeyViolation (← text j "entity") (← text j "field"))
  | "Unsupported" => pure (.unsupported (← text j "message"))
  | "Backend" => pure (.backend (← text j "message"))
  | _ => throw .malformed

end Blueprint

end EntityRest
