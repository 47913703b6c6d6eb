import EntityRest.Document.Format
import EntityRest.Plugin.Extension
import EntityRest.Yaml.Format

/-!
Reading extensions from YAML, and field patches from documents of any format.

Handlers cannot be written in a document: routes can only be disabled there.
-/

namespace EntityRest

open Format

variable {m : Type → Type} [Monad m] [MonadExceptOf Unit m] {δ : Type}

def FieldType.read (f : Format m δ) (d : δ) : m FieldType := f.named FieldType.ofName? d

def FieldDef.read (f : Format m δ) (d : δ) : m FieldDef := do
  let get ← f.record
    ["type", "optional", "unique", "default", "min", "max", "isEmail", "locked"] d
  let flag (key : String) := orElse false f.bool (get key)
  pure
    { type := ← orElse .string (FieldType.read f) (get "type")
      optional := ← flag "optional"
      unique := ← flag "unique"
      default := ← f.maybe f.value (get "default")
      min := ← f.maybe f.bound (get "min")
      max := ← f.maybe f.bound (get "max")
      isEmail := ← flag "isEmail"
      locked := ← flag "locked"
      relation := none }

def FieldPatch.read (f : Format m δ) (d : δ) : m FieldPatch := do
  let get ← f.record ["type", "optional", "unique", "default", "min", "max", "isEmail"] d
  pure
    { type := ← f.maybe (FieldType.read f) (get "type")
      optional := ← f.maybe f.bool (get "optional")
      unique := ← f.maybe f.bool (get "unique")
      default := ← f.maybe f.value (get "default")
      min := ← f.maybe f.bound (get "min")
      max := ← f.maybe f.bound (get "max")
      isEmail := ← f.maybe f.bool (get "isEmail") }

/-- The patch of a JSON document. -/
def FieldPatch.ofJson? (j : Json) : Option FieldPatch := FieldPatch.read Format.json j

def FieldChange.read (f : Format m δ) (d : δ) : m FieldChange := do
  let get ← f.record ["add", "remove", "rename", "override"] d
  pure
    { add := ← f.maybe (FieldDef.read f) (get "add")
      remove := ← orElse false f.bool (get "remove")
      rename := ← f.maybe f.string (get "rename")
      patch := ← f.maybe (FieldPatch.read f) (get "override") }

def EntityChange.read (f : Format m δ) (d : δ) : m EntityChange := do
  let get ← f.record ["fields", "addFields", "remove", "rename", "routePath", "internal"] d
  pure
    { fields := ← orElse ∅ (f.mapOf (FieldChange.read f)) (get "fields")
      addFields := ← orElse ∅ (f.mapOf (FieldDef.read f)) (get "addFields")
      remove := ← orElse false f.bool (get "remove")
      rename := ← f.maybe f.string (get "rename")
      routePath := ← f.maybe f.string (get "routePath")
      isInternal := ← f.maybe f.bool (get "internal") }

def PluginEntity.read (f : Format m δ) (d : δ) : m PluginEntity := do
  let get ← f.record
    ["fields", "ownerField", "timestamps", "required", "internal", "routePath"] d
  pure
    { fields := ← orElse ∅ (f.mapOf (FieldDef.read f)) (get "fields")
      ownerField := ← f.maybe f.string (get "ownerField")
      timestamps := ← orElse true f.bool (get "timestamps")
      required := ← orElse false f.bool (get "required")
      isInternal := ← orElse false f.bool (get "internal")
      routePath := ← f.maybe f.string (get "routePath") }

/-- The only override that can be written. -/
def RouteOverride.ofName? (s : String) : Option RouteOverride :=
  if s = "disable" then some .disable else none

def RouteDecision.ofName? (s : String) : Option RouteDecision :=
  if s = "default" then some .standard
  else if s = "disable" || s = "disabled" then some .disable
  else none

def RouteConfig.read (f : Format m δ) (d : δ) : m RouteConfig := do
  let get ← f.record (Operation.all.map (·.name)) d
  let decisions ← Operation.all.mapM fun op =>
    (op, ·) <$> orElse .standard (f.named RouteDecision.ofName?) (get op.name)
  pure fun op => (decisions.lookup op).getD .standard

/-- A base path is a text, or false for none. -/
def BasePathChange.read (f : Format m δ) (d : δ) : m BasePathChange := do
  match ← f.value d with
  | .str text => pure (.path text)
  | .bool false => pure .root
  | _ => throw ()

def Extension.read (f : Format m δ) (d : δ) : m Extension := do
  let get ← f.record ["entities", "addEntities", "routes", "basePath", "entityRoutes"] d
  pure
    { entities := ← orElse ∅ (f.mapOf (EntityChange.read f)) (get "entities")
      addEntities := ← orElse ∅ (f.mapOf (PluginEntity.read f)) (get "addEntities")
      routes := ← orElse ∅ (f.mapOf (f.named RouteOverride.ofName?)) (get "routes")
      basePath := ← f.maybe (BasePathChange.read f) (get "basePath")
      entityRoutes := ← orElse ∅ (f.mapOf (RouteConfig.read f)) (get "entityRoutes") }

/-- The extension of a YAML text; a text without contents changes nothing. -/
def Extension.ofYaml? (text : String) : Option Extension := do
  match ← Yaml.Document.ofText? text with
  | none => some {}
  | some d => d.read? Extension.read

end EntityRest
