import EntityRest.Config.Basic
import EntityRest.Hook.Chain
import EntityRest.Http.Message

/-!
What plugins are made of: handlers, routes, middleware and lifecycle callbacks.

Handlers and callbacks see an application through a view of its data (`AppView`); the parts of an
application that are still being put together are its shell.
-/

namespace EntityRest

/-- Where the routes of a plugin entity lie. -/
structure EntityPlace where
  /-- The name under which the plugin declares the entity. -/
  declaredName : String
  pluginId : String
  /-- Without a base path the routes lie at the root. -/
  basePath : Option String
  routePath : Option String
  isInternal : Bool
deriving DecidableEq

/-- The entities, storage and configuration of an application. -/
structure Shell where
  entities : OrdMap String Entity
  places : OrdMap String EntityPlace
  connection : Connection
  config : Config

/-- An application as handlers and callbacks see it. -/
structure AppView extends Shell where
  pluginIds : List String

/-- Answers requests of a route. -/
structure Handler where
  /-- Tells handlers apart in listings. -/
  label : String
  run : Request → AppView → Action ApiError Response

structure Route where
  method : String
  /-- A path pattern; a segment after a colon names a parameter. -/
  path : String
  handler : Handler

/-- The method and the path pattern, by which a route is referred to. -/
def Route.key (r : Route) : String := r.method ++ " " ++ r.path

/-- A request on its way to a handler, with the response that has been prepared for it. -/
structure Exchange where
  request : Request
  staged : Response

/-- Whether a request goes on after a middleware, or is answered with what is staged. -/
inductive Flow where
  | next
  | stop
deriving DecidableEq

/-- Sees every request before it is routed; what it changes stays changed even if it fails. -/
structure Middleware where
  name : String
  run : Exchange → StateM Env (Except ApiError Flow × Exchange)

/-- Things of a plugin that are known at once, or are made for an application that takes shape. -/
inductive Source (α : Type) where
  | fixed (items : List α)
  | made (make : Shell → List α)

namespace Source

variable {α : Type}

def materialize (shell : Shell) : Source α → List α
  | fixed items => items
  | made make => make shell

/-- What is known without an application. -/
def declared : Source α → List α
  | fixed items => items
  | made _ => []

/-- Adds one item at the end. -/
def push (s : Source α) (item : α) : Source α :=
  match s with
  | fixed items => fixed (items ++ [item])
  | made make => made fun shell => make shell ++ [item]

/-- Adds at the end what is made for an application; from then on nothing is known without one. -/
def pushMade (s : Source α) (make : Shell → List α) : Source α :=
  made fun shell => s.materialize shell ++ make shell

end Source

/-- The callbacks of a plugin. -/
structure Lifecycle where
  onRegister : Option (AppView → Action Failure Unit) := none
  onInit : Option (AppView → Action Failure Unit) := none
  onRequest : Option (Request → StateM Env Unit) := none
  onError : Option (ApiError → Request → StateM Env Unit) := none
  onShutdown : Option (AppView → Action Failure Unit) := none

end EntityRest
