import EntityRest.Plugin.Extension

/-!
Plugins: entities, routes, middleware, hooks and callbacks in one value, built up step by step.
-/

namespace EntityRest

structure Plugin where
  id : String
  name : String
  version : String
  description : Option String := none
  /-- The ids of the plugins that have to be initialized first. -/
  dependencies : List String := []
  /-- The base of the entity routes; without one it is made from the id. -/
  basePath : Option String := none
  entities : OrdMap String PluginEntity := ∅
  /-- Fields for entities that the application or other plugins declare. -/
  fieldExtensions : OrdMap String (OrdMap String FieldDef) := ∅
  routes : Source Route := .fixed []
  middleware : Source Middleware := .fixed []
  hooks : List Hook := []
  lifecycle : Lifecycle := {}
  /-- The options that the plugin was made with. -/
  options : Json := .null
  extension : Extension := {}

namespace Plugin

/-- A plugin without contents. -/
def ofId (id name version : String) : Plugin := { id, name, version }

def dependsOn (p : Plugin) (id : String) : Plugin :=
  { p with dependencies := p.dependencies ++ [id] }

def addEntity (p : Plugin) (name : String) (d : PluginEntity) : Plugin :=
  { p with entities := p.entities.insert name d }

def extendEntity (p : Plugin) (entity field : String) (d : FieldDef) : Plugin :=
  { p with fieldExtensions := p.fieldExtensions.upsert entity ∅ (·.insert field d) }

def addRoute (p : Plugin) (r : Route) : Plugin := { p with routes := p.routes.push r }

def addRoutesFrom (p : Plugin) (make : Shell → List Route) : Plugin :=
  { p with routes := p.routes.pushMade make }

def addMiddleware (p : Plugin) (m : Middleware) : Plugin :=
  { p with middleware := p.middleware.push m }

def addMiddlewareFrom (p : Plugin) (make : Shell → List Middleware) : Plugin :=
  { p with middleware := p.middleware.pushMade make }

def addHook (p : Plugin) (h : Hook) : Plugin := { p with hooks := p.hooks ++ [h] }

/-- Replaces some of the callbacks. -/
def withLifecycle (p : Plugin) (f : Lifecycle → Lifecycle) : Plugin :=
  { p with lifecycle := f p.lifecycle }

/-- One step in building up a plugin. -/
inductive Step where
  | description (text : String)
  | dependsOn (id : String)
  | basePath (path : String)
  | entity (name : String) (d : PluginEntity)
  | extendEntity (entity field : String) (d : FieldDef)
  | route (r : Route)
  | routesFrom (make : Shell → List Route)
  | middleware (m : Middleware)
  | middlewareFrom (make : Shell → List Middleware)
  | hook (h : Hook)
  | onRegister (run : AppView → Action Failure Unit)
  | onInit (run : AppView → Action Failure Unit)
  | onShutdown (run : AppView → Action Failure Unit)
  | onRequest (observe : Request → StateM Env Unit)
  | onError (observe : ApiError → Request → StateM Env Unit)
  | options (value : Json)
  | extension (x : Extension)

/-- A plugin after one more step; a step that sets something replaces what was set before. -/
def apply (p : Plugin) : Step → Plugin
  | .description text => { p with description := some text }
  | .dependsOn id => p.dependsOn id
  | .basePath path => { p with basePath := some path }
  | .entity name d => p.addEntity name d
  | .extendEntity entity field d => p.extendEntity entity field d
  | .route r => p.addRoute r
  | .routesFrom make => p.addRoutesFrom make
  | .middleware m => p.addMiddleware m
  | .middlewareFrom make => p.addMiddlewareFrom make
  | .hook h => p.addHook h
  | .onRegister run => p.withLifecycle fun l => { l with onRegister := some run }
  | .onInit run => p.withLifecycle fun l => { l with onInit := some run }
  | .onShutdown run => p.withLifecycle fun l => { l with onShutdown := some run }
  | .onRequest observe => p.withLifecycle fun l => { l with onRequest := some observe }
  | .onError observe => p.withLifecycle fun l => { l with onError := some observe }
  | .options value => { p with options := value }
  | .extension x => { p with extension := x }

/-- The plugin that steps build up, one after the other. -/
def ofSteps (id name version : String) (steps : List Step) : Plugin :=
  steps.foldl apply (ofId id name version)

end Plugin

end EntityRest
