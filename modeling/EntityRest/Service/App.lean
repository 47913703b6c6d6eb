import EntityRest.Plugin.Registry
import EntityRest.Routing.Router
import EntityRest.Service.Middleware
import EntityRest.Service.Pipeline

/-!
A running application: it takes requests through middleware and routing to a handler or to the steps
of an operation, and it answers every request.

Headers that middleware staged are in every answer; a handler's own headers win over them.
-/

namespace EntityRest

structure App extends AppView where
  entityMeta : OrdMap String EntityMeta
  router : Router
  middleware : List Middleware
  hooks : List Hook
  plugins : List Plugin

namespace App

variable (app : App)

def isProduction : Bool := app.config.isProduction

/-- The answer of the health check. -/
def health : Response :=
  .ok (Json.object [("status", .str "ok"), ("service", .str app.config.serviceName)])

/-- The steps of operations on an entity of the application. -/
def pipelineOf (e : Entity) : Pipeline := ⟨e, app.connection, app.hooks⟩

/-- Serves an operation on an entity. -/
def serveEntity (m : EntityMatch) (req : Request) : Action ApiError Response :=
  match m.customHandler with
  | some handler =>
    let params := m.id.elim req.params (req.params.insert "id" ·)
    handler.run { req with params } app.toAppView
  | none =>
    match app.entities.get? m.entity with
    | none => throw .routeNotFound
    | some e => (app.pipelineOf e).execute m.operation m.id req

/-- Serves a request that passed the middleware. -/
def dispatch (req : Request) : Action ApiError Response :=
  match app.router.matchRequest req.method req.path with
  | .health => pure app.health
  | .route r _ params => r.handler.run { req with params } app.toAppView
  | .entity m => app.serveEntity m req
  | .disabled => throw .routeNotFound
  | .notFound => throw .routeNotFound

/-- Tells plugins of a request. -/
def observeRequest (req : Request) : List Plugin → StateM Env Unit
  | [] => pure ()
  | p :: plugins => do
    p.lifecycle.onRequest.elim (pure ()) (· req)
    observeRequest req plugins

/-- Tells plugins of an error. -/
def observeError (e : ApiError) (req : Request) : List Plugin → StateM Env Unit
  | [] => pure ()
  | p :: plugins => do
    p.lifecycle.onError.elim (pure ()) (· e req)
    observeError e req plugins

/-- Internal errors are worth a warning. -/
def warnOfError (e : ApiError) (req : Request) : StateM Env Unit :=
  match e with
  | .internal m =>
    modify fun env =>
      { env with
        warnings := env.warnings ++
          [⟨"request failed", [("method", req.method), ("path", req.path), ("error", m)]⟩] }
  | _ => pure ()

/-- A response with the headers that middleware staged. -/
def withStaged (res : Response) (staged : Headers) : Response :=
  { res with headers := res.headers.merge staged }

/-- The answer to a request that failed. -/
def failWith (e : ApiError) (req : Request) (staged : Headers) : StateM Env Response := do
  warnOfError e req
  observeError e req app.plugins
  pure (withStaged (Response.ofError app.isProduction e) staged)

/-- Runs middleware until one of them fails or ends the request. -/
def runMiddleware : List Middleware → Exchange → StateM Env (Except ApiError Flow × Exchange)
  | [], x => pure (.ok .next, x)
  | m :: ms, x => do
    match ← m.run x with
    | (.ok .next, x) => runMiddleware ms x
    | (.ok .stop, x) => pure (.ok .stop, x)
    | (.error e, x) => pure (.error e, x)

/-- Answers a request that is served in a given way once it has passed the middleware. -/
def handleWith (serve : Request → Action ApiError Response) (req : Request) : StateM Env Response := do
  observeRequest req app.plugins
  match ← runMiddleware app.middleware ⟨req, .ok .null⟩ with
  | (.ok .stop, x) => pure x.staged
  | (.error e, x) => app.failWith e x.request x.staged.headers
  | (.ok .next, x) =>
    match ← (serve x.request).run with
    | .ok res => pure (withStaged res x.staged.headers)
    | .error e => app.failWith e x.request x.staged.headers

/-- Answers a request. -/
def handle (req : Request) : StateM Env Response := app.handleWith app.dispatch req

/-- Runs the shutdown callback of one plugin; the result is its error. -/
def shutdownOne (id : String) : StateM Env (Option Failure) := do
  match (app.plugins.find? (·.id = id)).bind (·.lifecycle.onShutdown) with
  | none => pure none
  | some f =>
    match ← (f app.toAppView).run with
    | .ok () => pure none
    | .error e =>
      modify fun env =>
        { env with
          warnings := env.warnings ++
            [⟨"plugin shutdown failed", [("plugin", id), ("error", e.message)]⟩] }
      pure (some e)

/-- Runs shutdown callbacks, all of them; the result is the first error. -/
def shutdownAll : List String → StateM Env (Option Failure)
  | [] => pure none
  | id :: ids => do
    let first ← app.shutdownOne id
    let later ← shutdownAll ids
    pure (first <|> later)

/-- Shuts the plugins down, each before those that it depends on; the result is the first error. -/
def shutdown (r : Registry) : StateM Env (Option Failure) :=
  let order := match r.orderFor app.pluginIds with
    | .ok order => order
    | .error _ => app.pluginIds
  app.shutdownAll order.reverse

end App

end EntityRest
