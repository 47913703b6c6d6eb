import EntityRest.Plugin.Basic
import EntityRest.Plugin.Dependency

/-!
The registry of an application: factories, registered plugins with their state, and the entities
that other plugins refer to.
-/

namespace EntityRest

/-- Makes a plugin from options. -/
abbrev PluginFactory := Json → Except FactoryFailure Plugin

/-- A registered plugin. -/
structure PluginInstance where
  plugin : Plugin
  initialized : Bool
  /-- The text of the error that ended its initialization. -/
  error : Option String

structure Registry where
  factories : OrdMap String PluginFactory
  instances : OrdMap String PluginInstance
  /-- The entities that references led to, by `plugin.entity`. -/
  entityRefs : OrdMap String Entity

namespace Registry

def empty : Registry := ⟨∅, ∅, ∅⟩

instance : Inhabited Registry := ⟨empty⟩

/-- Registers a factory under an id that must be free. -/
def registerFactory (r : Registry) (id : String) (f : PluginFactory) :
    Except PluginError Registry :=
  if r.factories.contains id then .error (.duplicateFactory id)
  else .ok { r with factories := r.factories.insert id f }

/--
A factory over options of a type of its own. Where the options are null the default ones are used,
and options that cannot be read make it fail.
-/
def typedFactory {α : Type} (decode : Json → Option α) (default : α) (make : α → Plugin) :
    PluginFactory := fun options =>
  if options.isNull then .ok (make default)
  else match decode options with
    | some a => .ok (make a)
    | none => .error .unreadableOptions

/-- The plugin that a factory makes, if there is one; it keeps the options it was made with. -/
def createFromFactory (r : Registry) (id : String) (options : Json) :
    Except PluginError (Option Plugin) :=
  match r.factories.get? id with
  | none => .ok none
  | some f =>
    match f options with
    | .error source => .error (.factoryFailed id source)
    | .ok p => .ok (some (if p.options.isNull then { p with options } else p))

/-- Registers a plugin under its id, which must be free. -/
def registerInstance (r : Registry) (p : Plugin) : Except PluginError Registry :=
  if r.instances.contains p.id then .error (.duplicateInstance p.id)
  else .ok { r with instances := r.instances.insert p.id ⟨p, false, none⟩ }

def plugin? (r : Registry) (id : String) : Option Plugin := (r.instances.get? id).map (·.plugin)

/-- The ids of the registered plugins in the order of registration. -/
def instanceIds (r : Registry) : List String := r.instances.keys

def isInitialized (r : Registry) (id : String) : Bool :=
  (r.instances.get? id).elim false (·.initialized)

def setState (r : Registry) (id : String) (initialized : Bool) (error : Option String) : Registry :=
  { r with instances := r.instances.modify id ({ · with initialized, error }) }

def dependencyGraph (r : Registry) : DependencyGraph :=
  r.instances.mapEntries fun _ i => i.plugin.dependencies

/-- The order in which given plugins are initialized. -/
def orderFor (r : Registry) (ids : List String) : Except PluginError (List String) :=
  r.dependencyGraph.orderFor ids

/-- The order in which all registered plugins are initialized. -/
def initOrder (r : Registry) : Except PluginError (List String) := r.orderFor r.instanceIds

/-- A callback that a plugin may have. -/
def callback (f : Option (AppView → Action Failure Unit)) (app : AppView) : Action Failure Unit :=
  f.elim (pure ()) (· app)

/-- Registers a plugin with the application and then initializes it. -/
def startPlugin (p : Plugin) (app : AppView) : Action Failure Unit := do
  callback p.lifecycle.onRegister app
  callback p.lifecycle.onInit app

/--
Starts one plugin, unless it is initialized already, and keeps the outcome with it.
-/
def startOne (app : AppView) (r : Registry) (id : String) :
    StateM Env (Except PluginError Unit × Registry) := do
  match r.plugin? id with
  | none => pure (.ok (), r)
  | some p =>
    if r.isInitialized id then pure (.ok (), r)
    else
      match ← (startPlugin p app).run with
      | .ok () => pure (.ok (), r.setState id true none)
      | .error source =>
        modify fun env =>
          { env with
            warnings := env.warnings ++
              [⟨"plugin initialization failed", [("plugin", id), ("error", source.message)]⟩] }
        pure (.error (.initFailed id source), r.setState id false (some source.message))

/-- Starts plugins one after the other, until one fails. -/
def startAll (app : AppView) (r : Registry) :
    List String → StateM Env (Except PluginError Unit × Registry)
  | [] => pure (.ok (), r)
  | id :: ids => do
    match ← startOne app r id with
    | (.error e, r) => pure (.error e, r)
    | (.ok (), r) => startAll app r ids

/-- Starts given plugins in the order of their dependencies. -/
def initializePlugins (app : AppView) (r : Registry) (ids : List String) :
    StateM Env (Except PluginError Unit × Registry) :=
  match r.orderFor ids with
  | .error e => pure (.error e, r)
  | .ok order => startAll app r order

/-- Starts all registered plugins. -/
def initializeAll (app : AppView) (r : Registry) :
    StateM Env (Except PluginError Unit × Registry) :=
  initializePlugins app r r.instanceIds

/-- The entity that is kept for a key; a new key keeps the one given. -/
def cachedEntity (r : Registry) (key : String) (e : Entity) : Entity × Registry :=
  match r.entityRefs.get? key with
  | some kept => (kept, r)
  | none => (e, { r with entityRefs := r.entityRefs.insert key e })

def clearEntityRefs (r : Registry) : Registry := { r with entityRefs := ∅ }

end Registry

end EntityRest
