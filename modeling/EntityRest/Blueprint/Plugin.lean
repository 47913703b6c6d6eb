import EntityRest.Blueprint.Script
import EntityRest.Plugin.ExtensionReader

/-!
Blueprints of plugins and their extensions, each a list of the steps that build it.

What a handler does is not for a blueprint to say: how its description is read is up to the host.
-/

namespace EntityRest

namespace Blueprint

/-- How a host reads what a handler does. -/
abbrev HandlerReader := Json → Read (Request → AppView → Action ApiError Response)

variable (handlers : HandlerReader)

def handler (label : String) (j : Json) : Read Handler := do
  pure ⟨label, ← handlers (← field j "handler")⟩

def route (j : Json) : Read Route := do
  pure ⟨← text j "method", ← text j "path", ← handler handlers "declared" j⟩

/-- Writes a number in place of each mark that stands for the number of entities. -/
def fillCount (n : Nat) (path : String) : String :=
  path.replace "\x7bentities\x7d" (toString n)

def extensionStep (x : Extension) (j : Json) : Read Extension := do
  let step ← text j "do"
  if step = "disableRoute" then pure (x.overrideRoute (← text j "key") .disable)
  else if step = "replaceRoute" then
    pure (x.overrideRoute (← text j "key") (.replace (← handler handlers "replacement" j)))
  else if step = "basePath" then pure (x.withBasePath (.path (← text j "to")))
  else if step = "noBasePath" then pure (x.withBasePath .root)
  else
    let entity ← text j "entity"
    match step with
    | "removeEntity" => pure (x.removeEntity entity)
    | "renameEntity" => pure (x.renameEntity entity (← text j "to"))
    | "routePath" => pure (x.withRoutePath entity (← text j "to"))
    | "internal" => pure (x.withInternal entity (flag j "value"))
    | "addEntity" => pure (x.addEntity entity (← pluginEntity entity (← field j "def")))
    | "disableOperation" => pure (x.decide entity (← operation (← text j "operation")) .disable)
    | "customOperation" =>
      pure (x.decide entity (← operation (← text j "operation"))
        (.custom (← handler handlers "custom" j)))
    | _ =>
      let name ← text j "field"
      match step with
      | "insertField" => pure (x.insertField entity name (← fieldDef name entity (← field j "def")))
      | "addField" => pure (x.addField entity name (← fieldDef name entity (← field j "def")))
      | "removeField" => pure (x.removeField entity name)
      | "renameField" => pure (x.renameField entity name (← text j "to"))
      | "overrideField" =>
        let patch ← orThrow .unreadablePatch (FieldPatch.ofJson? (← field j "patch"))
        pure (x.patchField entity name patch)
      | _ => throw .malformed

/-- An extension, as a YAML text or as a list of steps. -/
def extension (j : Json) : Read Extension := do
  match j with
  | .str text => orThrow .unreadableYaml (Extension.ofYaml? text)
  | .arr steps => steps.foldlM (extensionStep handlers) {}
  | _ => throw .malformed

/-- A callback that notes how many entities there are, and fails if it is to. -/
def callback (id event : String) (j : Json) : AppView → Action Failure Unit := fun app => do
  Action.note (Json.object
    [("plugin", .str id), ("event", .str event), ("entities", toJson app.entities.size)])
  match text? j "fail" with
  | some m => throw (.text m)
  | none => pure ()

/-- Notes that a plugin saw a request. -/
def noteRequest (id event : String) (req : Request) (more : List (String × Json)) :
    StateM Env Unit :=
  modify fun env => { env with journal := env.journal ++ [Json.object <|
    [("plugin", .str id), ("event", .str event), ("path", .str req.path)] ++ more] }

/-- One step in building up the plugin with the given id. -/
def pluginStep (id : String) (j : Json) : Read Plugin.Step := do
  match ← text j "do" with
  | "description" => pure (.description (← text j "value"))
  | "basePath" => pure (.basePath (← text j "value"))
  | "dependsOn" => pure (.dependsOn (← text j "value"))
  | "options" => pure (.options (← field j "value"))
  | "entity" =>
    let name ← text j "name"
    pure (.entity name (← pluginEntity name (← field j "def")))
  | "extendEntity" =>
    let entity ← text j "entity"
    let name ← text j "field"
    pure (.extendEntity entity name (← fieldDef name entity (← field j "def")))
  | "route" => pure (.route (← route handlers j))
  | "routesFrom" =>
    let routes ← (items j "routes").mapM (route handlers)
    pure (.routesFrom fun shell =>
      routes.map fun r => { r with path := fillCount shell.entities.size r.path })
  | "middleware" => pure (.middleware (← middleware j))
  | "middlewareFrom" =>
    let list ← (items j "list").mapM middleware
    pure (.middlewareFrom fun _ => list)
  | "hook" => pure (.hook (← hook j))
  | "onRegister" => pure (.onRegister (callback id "onRegister" j))
  | "onInit" => pure (.onInit (callback id "onInit" j))
  | "onShutdown" => pure (.onShutdown (callback id "onShutdown" j))
  | "onRequest" => pure (.onRequest fun req => noteRequest id "onRequest" req [])
  | "onError" => pure (.onError fun e req => noteRequest id "onError" req [("error", toJson e)])
  | "extension" => pure (.extension (← extension handlers (← field j "value")))
  | _ => throw .malformed

def plugin (j : Json) : Read Plugin := do
  let id ← text j "id"
  let steps ← (items j "steps").mapM (pluginStep handlers id)
  let p := Plugin.ofSteps id ((text? j "name").getD id) ((text? j "version").getD "1.0.0") steps
  match given? j "extension" with
  | some x => pure { p with extension := ← extension handlers x }
  | none => pure p

end Blueprint

end EntityRest
