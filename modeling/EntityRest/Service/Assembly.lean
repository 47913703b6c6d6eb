import EntityRest.Plugin.Conflicts
import EntityRest.Service.App

/-!
Assembling an application from its entities, plugins, middleware and hooks.

Plugins are made and registered, resolved and merged over the entities of the application; then
their routes and middleware are made for what is there, and last they are initialized.
-/

namespace EntityRest

/-- A plugin, or the factory that makes it. -/
inductive PluginChoice where
  | plugin (p : Plugin)
  | factory (id : String) (options : Json)

/-- What an application is assembled from. -/
structure AppSpec where
  config : Config
  driver : Driver
  entities : List Entity
  plugins : List PluginChoice
  middleware : List Middleware
  hooks : List Hook

/-- Why an application could not be assembled. -/
inductive BuildError where
  | factory (source : PluginError)
  | unknownFactory (id : String)
  | initialization (source : PluginError)

/-- The message of the error and those of its causes, the outermost first. -/
def BuildError.chain : BuildError → List String
  | factory source => source.chain
  | unknownFactory id => ["Plugin factory \"" ++ id ++ "\" is not registered"]
  | initialization source => "Plugin initialization failed" :: source.chain

namespace Assembly

/-- The plugin of a choice. -/
def choose (r : Registry) : PluginChoice → Except BuildError Plugin
  | .plugin p => .ok p
  | .factory id options =>
    match r.createFromFactory id options with
    | .error e => .error (.factory e)
    | .ok none => .error (.unknownFactory id)
    | .ok (some p) => .ok p

/-- Registers a plugin unless its id is taken. -/
def enroll (r : Registry) (p : Plugin) : Registry :=
  match r.registerInstance p with
  | .ok r => r
  | .error _ => r

/-- Makes and registers plugins one after the other, until one fails. -/
def enrollAll (r : Registry) (plugins : List Plugin) :
    List PluginChoice → Except BuildError (List Plugin) × Registry
  | [] => (.ok plugins, r)
  | c :: cs =>
    match choose r c with
    | .error e => (.error e, r)
    | .ok p => enrollAll (enroll r p) (plugins ++ [p]) cs

/-- Resolves plugins with their own extensions. -/
def resolveAll (plugins : List Plugin) : List ResolvedPlugin × List Warning :=
  let resolved := plugins.map Plugin.resolve
  (resolved.map Prod.fst, resolved.flatMap Prod.snd)

/-- Entities under assembly, with the warnings so far. -/
abbrev Entities := OrdMap String Entity × List Warning

/-- Puts the entities of plugins over those of the application. -/
def addPluginEntities (entities : OrdMap String Entity) (added : OrdMap String Entity) : Entities :=
  added.toList.foldl
    (fun (m, warnings) (name, e) =>
      let warning := if m.contains name then
        [⟨"plugin entity replaces application entity", [("entity", name)]⟩] else []
      (m.insert name e, warnings ++ warning))
    (entities, [])

/-- Adds fields to an entity, over fields of the same names. -/
def addFields (e : Entity) (fields : OrdMap String FieldDef) : Entity :=
  { e with fields := e.fields.union fields }

/-- Adds the fields that a plugin has for the entities of others. -/
def extendEntities (entities : OrdMap String Entity) (p : ResolvedPlugin) : Entities :=
  p.fieldExtensions.toList.foldl
    (fun (m, warnings) (target, fields) =>
      if m.contains target then (m.modify target (addFields · fields), warnings)
      else (m, warnings ++
        [⟨"cannot extend unknown entity, skipping", [("plugin", p.id), ("entity", target)]⟩]))
    (entities, [])

/-- All entities of an application. -/
def allEntities (own : List Entity) (merged : MergedPlugins) : Entities :=
  let replaced := addPluginEntities (OrdMap.ofList (own.map fun e => (e.name, e))) merged.entities
  merged.plugins.foldl
    (fun (m, warnings) p =>
      let (m, more) := extendEntities m p
      (m, warnings ++ more))
    replaced

/-- The application of the given plugins, before they are initialized. -/
def assemble (spec : AppSpec) (plugins : List Plugin) : App × List Warning :=
  let conflicts := (Conflicts.check plugins).map fun c => ⟨"plugin conflict: " ++ c, []⟩
  let (resolved, resolveWarnings) := resolveAll plugins
  let merged := mergePlugins resolved
  let (entities, entityWarnings) := allEntities spec.entities merged
  let shell : Shell :=
    { entities
      places := merged.entityMeta.mapEntries fun _ m => m.toEntityPlace
      connection := ⟨spec.driver, 0⟩
      config := spec.config }
  let routes := merged.plugins.flatMap fun p =>
    overrideRoutes p.routeOverrides (p.routes.materialize shell)
  let (router, routerWarnings) := Router.build entities.keys merged.entityMeta routes
  ({ toAppView := { toShell := shell, pluginIds := plugins.map (·.id) }
     entityMeta := merged.entityMeta
     router
     middleware := Middleware.defaults spec.config ++
       merged.plugins.flatMap (·.middleware.materialize shell) ++ spec.middleware
     hooks := merged.plugins.flatMap (·.hooks) ++ spec.hooks
     plugins },
    conflicts ++ resolveWarnings ++ entityWarnings ++ routerWarnings)

/-- Assembles an application and initializes its plugins. -/
def build (r : Registry) (spec : AppSpec) : StateM Env (Except BuildError App × Registry) := do
  match enrollAll r [] spec.plugins with
  | (.error e, r) => pure (.error e, r)
  | (.ok plugins, r) =>
    let (app, warnings) := assemble spec plugins
    modify fun env => { env with warnings := env.warnings ++ warnings }
    match ← r.initializePlugins app.toAppView app.pluginIds with
    | (.error e, r) => pure (.error (.initialization e), r)
    | (.ok (), r) => pure (.ok app, r)

end Assembly

end EntityRest
