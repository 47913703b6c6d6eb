import EntityRest.Proofs.Routing.Alike
import EntityRest.Proofs.Service.Alike
import EntityRest.Proofs.Service.Answer
import EntityRest.Service.Assembly

/-! # What production keeps to itself

Two applications that are alike answer every request with the same response in production (`Alike.answer_eq`): from
middleware through routing to the operations both do the same, or both fail with errors whose responses are the
same. What can fail are the components of an application: its middleware, its hooks, its handlers, and the calls that
its operations make to the driver. What a hook or a handler calls is part of that hook or handler, which fails if it
passes an error on. Applications that differ in one component are alike if this component is (`handle_redacted`).
Under another driver all hooks and handlers can change at once, and each of them has to be alike (`handle_swapped`).
A handler that answers with the text of an error has not failed, and nothing is redacted (`handle_confessing`). -/

namespace EntityRest

variable {C : Connection → Connection → Prop}

/-! ### Middleware -/

/-- What middleware makes of a request in two runs: the same, or failures that production does not tell apart. -/
inductive Received.Alike :
    (Except ApiError Flow × Exchange) × Env → (Except ApiError Flow × Exchange) × Env → Prop
  | same (r : (Except ApiError Flow × Exchange) × Env) : Alike r r
  | failed {e e' : ApiError} (h : e.Alike e') (x : Exchange) (env env' : Env) :
      Alike ((.error e, x), env) ((.error e', x), env')

def Middleware.Alike (m m' : Middleware) : Prop :=
  ∀ x env, Received.Alike ((m.run x).run env) ((m'.run x).run env)

theorem Middleware.Alike.refl (m : Middleware) : m.Alike m := fun _ _ => .same _

theorem App.runMiddleware_alike {ms ms' : List Middleware} (h : List.Forall₂ Middleware.Alike ms ms')
    (x : Exchange) (env : Env) :
    Received.Alike ((runMiddleware ms x).run env) ((runMiddleware ms' x).run env) := by
  induction h generalizing x env with
  | nil => exact .same _
  | @cons m m' ms ms' hm _ ih =>
    rw [run_runMiddleware_cons, run_runMiddleware_cons]
    have hm := hm x env
    generalize (m.run x).run env = r, (m'.run x).run env = r' at hm ⊢
    cases hm with
    | failed h => exact .failed h _ _ _
    | same r =>
      rcases r with ⟨⟨e | flow, x⟩, env⟩
      · exact .same _
      · cases flow with
        | stop => exact .same _
        | next => exact ih _ _

/-! ### Applications -/

namespace App

/-- Applications of the same entities and configuration whose components do alike. -/
structure Alike (C : Connection → Connection → Prop) (app app' : App) : Prop where
  view : app.toAppView.Alike C app'.toAppView
  connection : app.connection.Alike app'.connection
  router : app.router.Alike C app'.router
  middleware : List.Forall₂ Middleware.Alike app.middleware app'.middleware
  hooks : List.Forall₂ (Hook.Alike C) app.hooks app'.hooks
  callbacks : app'.plugins.map (·.lifecycle) = app.plugins.map (·.lifecycle)

theorem observeRequest_congr {req : Request} {ps ps' : List Plugin}
    (h : ps'.map (·.lifecycle) = ps.map (·.lifecycle)) : observeRequest req ps' = observeRequest req ps := by
  induction ps generalizing ps' with
  | nil => rw [List.map_eq_nil_iff.1 h]
  | cons p ps ih =>
    obtain ⟨p', ps', rfl, hp, hps⟩ := List.map_eq_cons_iff.1 h
    rw [observeRequest, observeRequest, hp, ih hps]

variable {app app' : App}

theorem Alike.serveEntity (h : app.Alike C app') (m : EntityMatch) {handler handler' : Option Handler}
    (hh : Option.Rel (Handler.Alike C) handler handler') (req : Request) :
    (app.serveEntity { m with customHandler := handler } req).Alike ApiError.Alike Eq
      (app'.serveEntity { m with customHandler := handler' } req) := by
  cases hh with
  | some hh => exact hh _ _ _ h.view
  | none =>
    have hentities : app'.entities = app.entities := by
      obtain ⟨c, -, hview⟩ := h.view
      rw [hview]
    unfold App.serveEntity
    dsimp only
    rw [hentities]
    cases app.entities.get? m.entity with
    | none => exact Action.alike_self _
    | some e =>
      have hcontext : C app.connection app'.connection := by
        obtain ⟨c, hc, hview⟩ := h.view
        rw [hview]
        exact hc
      exact Pipeline.Alike.execute ⟨⟨rfl, h.connection⟩, hcontext, h.hooks⟩

theorem Alike.dispatch (h : app.Alike C app') (req : Request) :
    (app.dispatch req).Alike ApiError.Alike Eq (app'.dispatch req) := by
  have hhealth : app'.health = app.health := by
    obtain ⟨c, -, hview⟩ := h.view
    rw [App.health, App.health, hview]
  unfold App.dispatch
  have hmatch := h.router.matchRequest req.method req.path
  generalize app.router.matchRequest req.method req.path = x,
    app'.router.matchRequest req.method req.path = x' at hmatch ⊢
  cases hmatch with
  | health => exact .pure hhealth.symm
  | route hr _ params => exact hr.handler _ _ _ h.view
  | entity m hh => exact h.serveEntity m hh req
  | disabled => exact Action.alike_self _
  | notFound => exact Action.alike_self _

theorem failure_eq_of_alike {e e' : ApiError} (h : e.Alike e') (happ : app.isProduction = true)
    (happ' : app'.isProduction = true) (staged : Headers) : app.failure e staged = app'.failure e' staged := by
  rw [failure, failure, happ, happ', h.ofError_eq]

/-- In production two ways of serving requests that are alike are the same to the client. -/
theorem run_handleWith_eq {serve serve' : Request → Action ApiError Response} {req : Request} {env : Env}
    (hreceived : Received.Alike (app.received req env) (app'.received req env))
    (hserve : ∀ req, (serve req).Alike ApiError.Alike Eq (serve' req))
    (happ : app.isProduction = true) (happ' : app'.isProduction = true) :
    ((app.handleWith serve req).run env).1 = ((app'.handleWith serve' req).run env).1 := by
  rw [run_handleWith, run_handleWith]
  generalize app.received req env = r, app'.received req env = r' at hreceived ⊢
  cases hreceived with
  | failed he x => exact failure_eq_of_alike he happ happ' _
  | same r =>
    rcases r with ⟨⟨e | flow, x⟩, env'⟩
    · exact failure_eq_of_alike (.refl e) happ happ' _
    · cases flow with
      | stop => rfl
      | next =>
        have hserve := hserve x.request env'
        dsimp only
        generalize (serve x.request).runOn env' = s, (serve' x.request).runOn env' = s' at hserve ⊢
        cases hserve with
        | ok hres => exact hres ▸ rfl
        | error he => exact failure_eq_of_alike he happ happ' _

theorem Alike.answer_eq (h : app.Alike C app') (hproduction : app.isProduction = true) (req : Request)
    (env : Env) : app.answer req env = app'.answer req env := by
  have hproduction' : app'.isProduction = true := by
    obtain ⟨c, -, hview⟩ := h.view
    rw [← hproduction, isProduction, isProduction, hview]
  have hreceived : Received.Alike (app.received req env) (app'.received req env) := by
    rw [received, received, observeRequest_congr h.callbacks]
    exact runMiddleware_alike h.middleware _ _
  exact run_handleWith_eq hreceived h.dispatch hproduction hproduction'

/-! ### Calls of the operations -/

theorem Alike.refl (app : App) : app.Alike Eq app where
  view := AppView.alike_eq_iff.2 rfl
  connection := .refl _
  router := .refl _
  middleware := List.forall₂_same.2 fun m _ => .refl m
  hooks := List.forall₂_same.2 fun h _ => .refl h
  callbacks := rfl

/-- The application with a handler of its own for an operation on an entity. -/
def withOperation (app : App) (name : String) (m : EntityMeta) (op : Operation) (handler : Handler) : App :=
  let routeConfig := (m.routeConfig.getD .standard).set op (.custom handler)
  let entityMeta := app.entityMeta.insert name { m with routeConfig := some routeConfig }
  { app with entityMeta, router := { app.router with entityMeta } }

/-- Applications that are the same but for one component, and what this one does in the one application it does in
the other as well, or it fails in both with hidden errors. -/
inductive DifferIn : App → App → Prop
  | middleware (app : App) (before after : List Middleware) {m m' : Middleware} (h : m.Alike m') :
      DifferIn { app with middleware := before ++ m :: after } { app with middleware := before ++ m' :: after }
  | hook (app : App) (before after : List Hook) {entity : String} {event : HookEvent}
      {run run' : HookContext → Action ApiError HookContext}
      (h : ∀ ctx, (run ctx).Alike ApiError.Alike Eq (run' ctx)) :
      DifferIn { app with hooks := before ++ ⟨entity, event, run⟩ :: after }
        { app with hooks := before ++ ⟨entity, event, run'⟩ :: after }
  | route (app : App) (before after : List Route) {method path : String} {handler handler' : Handler}
      (h : ∀ req view, (handler.run req view).Alike ApiError.Alike Eq (handler'.run req view)) :
      DifferIn { app with router.routes := before ++ ⟨method, path, handler⟩ :: after }
        { app with router.routes := before ++ ⟨method, path, handler'⟩ :: after }
  | operation (app : App) (name : String) (m : EntityMeta) (op : Operation) {handler handler' : Handler}
      (h : ∀ req view, (handler.run req view).Alike ApiError.Alike Eq (handler'.run req view)) :
      DifferIn (app.withOperation name m op handler) (app.withOperation name m op handler')

/-- Applications that differ in one component. The plugin that has brought it has it as well, so plugins need only
agree in their callbacks. -/
structure DifferOnce (app app' : App) : Prop where
  component : DifferIn app { app' with plugins := app.plugins }
  callbacks : app'.plugins.map (·.lifecycle) = app.plugins.map (·.lifecycle)

theorem withOperation_alike (app : App) (name : String) (m : EntityMeta) (op : Operation)
    {handler handler' : Handler} (h : handler.Alike Eq handler') :
    (app.withOperation name m op handler).Alike Eq (app.withOperation name m op handler') := by
  refine { Alike.refl app with router := { Router.Alike.refl app.router with entityMeta := fun name' => ?_ } }
  show Option.Rel _ ((app.entityMeta.insert name _).get? name') ((app.entityMeta.insert name _).get? name')
  rw [OrdMap.get?_insert, OrdMap.get?_insert]
  split
  · refine .some ⟨rfl, fun op' => ?_⟩
    show RouteDecision.Alike Eq (RouteConfig.set _ op _ op') (RouteConfig.set _ op _ op')
    unfold RouteConfig.set
    split
    · exact .custom h
    · exact RouteDecision.alike_self fun _ _ => .refl _
  · exact EntityMeta.rel_self fun _ _ _ _ _ => .refl _

theorem forall₂_replace {α : Type} {R : α → α → Prop} (hrefl : ∀ a, R a a) (before after : List α) {a a' : α}
    (h : R a a') : List.Forall₂ R (before ++ a :: after) (before ++ a' :: after) :=
  List.rel_append (List.forall₂_same.2 fun a _ => hrefl a) (.cons h (List.forall₂_same.2 fun a _ => hrefl a))

theorem DifferIn.alike (h : DifferIn app app') : app.Alike Eq app' := by
  cases h with
  | middleware app before after h =>
    exact { Alike.refl app with middleware := forall₂_replace .refl before after h }
  | hook app before after h =>
    exact { Alike.refl app with hooks := forall₂_replace .refl before after (Hook.alike_of_run h) }
  | @route app before after method path handler handler' h =>
    have hroute : Route.Alike Eq ⟨method, path, handler⟩ ⟨method, path, handler'⟩ :=
      ⟨rfl, rfl, Handler.alike_eq_iff.2 h⟩
    have hroutes := forall₂_replace (fun r => ⟨rfl, rfl, .refl r.handler⟩) before after hroute
    exact { Alike.refl app with router := { Router.Alike.refl app.router with routes := hroutes } }
  | operation app name m op h => exact app.withOperation_alike name m op (Handler.alike_eq_iff.2 h)

theorem DifferOnce.alike (h : DifferOnce app app') : app.Alike Eq app' :=
  { h.component.alike with callbacks := h.callbacks }

/-- A driver that cannot list anything. -/
def brokenDriver (message : String) : Driver :=
  { InMemory.driver false with findMany := fun _ _ _ => throw (.backend message) }

theorem brokenDriver_alike (message message' : String) : (brokenDriver message).Alike (brokenDriver message') :=
  fun scope => { Connection.Alike.refl ⟨InMemory.driver false, scope⟩ with
    findMany := fun _ _ _ => .error (.inr ⟨.backend message, .backend message'⟩) }

/-- Keeps a record of everyone who looks at the notes. -/
def auditing : Hook where
  entity := "note"
  event := .before .list
  run ctx := do
    let _ ← Pipeline.onDriver (ctx.connection.create (Entity.placeholder "audit") [])
    pure ctx

/-- Answers with all notes. -/
def reporting : Handler where
  label := "report"
  run _ view := do
    let notes ← Pipeline.onDriver (view.connection.findMany (Entity.placeholder "note") .all)
    pure (.ok (.arr notes))

/-- A printer that does not print. -/
def printing (message : String) : Handler where
  label := "print"
  run _ _ := throw (.internal message)

/-- A shop that has lost its disk, and whose printer does not work either. -/
def brokenShop (disk printer : String) : App :=
  (Assembly.assemble
    { config := { environment := .production }
      driver := brokenDriver disk
      entities := [Entity.placeholder "note"]
      plugins := []
      middleware := []
      hooks := [auditing] }
    [((Plugin.ofId "office" "Office" "1.0.0").addRoute ⟨"GET", "/report", reporting⟩).addRoute
      ⟨"POST", "/print", printing printer⟩]).1

/-- Connections of which the second has the second driver where the first has the first one. -/
def Swapped (d d' : Driver) (c c' : Connection) : Prop := c' = c ∨ c.driver = d ∧ c' = ⟨d', c.scope⟩

/-- The hooks and handlers of an application do alike with two drivers. They do if they pass the errors of the
driver on, or look at no more than which kind they are of. -/
structure TreatsAlike (app : App) (d d' : Driver) : Prop where
  hooks : ∀ hook ∈ app.hooks, hook.Alike (Swapped d d') hook
  routes : ∀ route ∈ app.router.routes, route.handler.Alike (Swapped d d') route.handler
  operations : ∀ name m, app.router.entityMeta.get? name = some m → ∀ op handler,
    m.decision op = .custom handler → handler.Alike (Swapped d d') handler

/-- The driver is what operations, hooks and handlers share. If it is replaced, what hooks and handlers make of it is
up to them. -/
theorem handle_swapped {d d' : Driver} {scope : Nat} (happ : app.connection = ⟨d, scope⟩) (h : d.Alike d')
    (htreats : app.TreatsAlike d d') (hproduction : app.config.environment = .production) (req : Request)
    (env : Env) :
    ((app.handle req).run env).1 = (({ app with connection := ⟨d', scope⟩ } : App).handle req |>.run env).1 := by
  have halike : app.Alike (Swapped d d') { app with connection := ⟨d', scope⟩ } :=
    { view := ⟨_, .inr ⟨congrArg Connection.driver happ, by rw [happ]⟩, rfl⟩
      connection := happ ▸ h scope
      router := Router.alike_self htreats.routes htreats.operations
      middleware := List.forall₂_same.2 fun m _ => .refl m
      hooks := List.forall₂_same.2 htreats.hooks
      callbacks := rfl }
  exact halike.answer_eq (decide_eq_true hproduction) req env

theorem Swapped.alike {d d' : Driver} {c c' : Connection} (hc : Swapped d d' c c') (h : d.Alike d') :
    c.Alike c' := by
  rcases hc with rfl | ⟨rfl, rfl⟩
  · exact .refl _
  · exact h _

theorem treatsAlike_brokenShop {d d' : Driver} (h : d.Alike d') (disk printer : String) :
    (brokenShop disk printer).TreatsAlike d d' where
  hooks hook hhook := by
    obtain rfl := List.mem_singleton.1 hhook
    refine ⟨rfl, rfl, ?_⟩
    rintro ctx _ ⟨c, hc, rfl⟩
    exact (Pipeline.onDriver_alike ((hc.alike h).create _ _)).bind_eq fun _ => .pure ⟨c, hc, rfl⟩
  routes route hroute := by
    obtain rfl | rfl := List.mem_pair.1 hroute
    · rintro req view _ ⟨c, hc, rfl⟩
      exact (Pipeline.onDriver_alike ((hc.alike h).findMany _ _)).bind_eq fun _ => .pure rfl
    · exact fun _ _ _ _ => Action.alike_self _
  operations name m hm := by cases hm

/-- The report does not tell either what is wrong with the disk. -/
theorem handle_swapped_brokenShop :
    let report (disk : String) :=
      (((brokenShop disk "no paper").handle (Request.ofPath "GET" "/report")).run Env.empty).1
    report "disk full" = report "disk unplugged" := by
  have hdisks := brokenDriver_alike "disk full" "disk unplugged"
  have htreats := treatsAlike_brokenShop hdisks "disk full" "no paper"
  have hconnection : (brokenShop "disk full" "no paper").connection = ⟨brokenDriver "disk full", 0⟩ := rfl
  exact handle_swapped hconnection hdisks htreats rfl _ _

/-- Answers with all notes, or with what went wrong. -/
def confessing : Handler where
  label := "confess"
  run _ view := do
    match ← (view.connection.findMany (Entity.placeholder "note") .all).attempt with
    | .ok notes => pure (.ok (.arr notes))
    | .error e => pure (.ok (.str e.message))

/-- What a handler answers is not an error, even if it is the text of one. -/
theorem handle_confessing :
    let shop (disk : String) : App :=
      { brokenShop disk "no paper" with router.routes := [⟨"GET", "/report", confessing⟩] }
    let report (disk : String) := (((shop disk).handle (Request.ofPath "GET" "/report")).run Env.empty).1
    (report "disk full").body = .str "disk full" ∧ (report "disk unplugged").body = .str "disk unplugged" :=
  ⟨rfl, rfl⟩

end App

end EntityRest
