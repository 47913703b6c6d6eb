import EntityRest.Blueprint.Schema
import EntityRest.Describe.Service

/-!
Hooks and middleware that are declared as lists of steps.

A step changes what the hook or the middleware works on, notes something in the journal, or ends the
list. The steps run in their order until one of them ends the list.
-/

namespace EntityRest

namespace Blueprint

/-- A step of a hook: the context after it, and whether the list goes on. -/
abbrev HookStep := HookContext → Action ApiError (HookContext × Bool)

namespace HookStep

def edit (f : HookContext → HookContext) : HookStep := fun ctx => pure (f ctx, true)

/-- Notes what the hook was given. -/
def note (tag : Json) : HookStep := fun ctx => do
  Action.note (Json.object
    [("hook", tag), ("entity", .str ctx.entity), ("operation", toJson ctx.operation),
      ("user", toJson (ctx.user.map (·.id))), ("input", .obj ctx.input),
      ("resource", toJson ctx.resource), ("filter", toJson ctx.filter)])
  pure (ctx, true)

/-- Sets a field of the record at hand, if there is one. -/
def setResource (k : String) (v : Json) : HookStep := edit fun ctx =>
  match ctx.resource with
  | some (.obj o) => { ctx with resource := some (.obj (Fields.insert o k v)) }
  | _ => ctx

/-- Stores a record of another entity. -/
def create (e : Entity) (data : Fields) : HookStep := fun ctx => do
  let _ ← Pipeline.onDriver (ctx.connection.create e data)
  pure (ctx, true)

def runAll : List HookStep → HookContext → Action ApiError HookContext
  | [], ctx => pure ctx
  | step :: steps, ctx => do
    let (ctx, more) ← step ctx
    if more then runAll steps ctx else pure ctx

end HookStep

def hookStep (j : Json) : Read HookStep := do
  match ← text j "do" with
  | "log" => HookStep.note <$> field j "tag"
  | "setInput" =>
    let k ← text j "field"
    let v ← field j "value"
    pure (.edit fun ctx => { ctx with input := ctx.input.insert k v })
  | "dropInput" =>
    let k ← text j "field"
    pure (.edit fun ctx => { ctx with input := ctx.input.erase k })
  | "setFilter" =>
    let k ← text j "field"
    let c ← condition j
    pure (.edit fun ctx => { ctx with filter := ctx.filter.insert k c })
  | "clearFilter" => pure (.edit fun ctx => { ctx with filter := ∅ })
  | "setResource" => do pure (.setResource (← text j "field") (← field j "value"))
  | "dropResource" => pure (.edit fun ctx => { ctx with resource := none })
  | "stop" =>
    let v := (j.field? "resource").getD .null
    pure fun ctx => pure (ctx.stopWith v, false)
  | "fail" =>
    let e ← apiError j
    pure fun _ => throw e
  | "create" =>
    let e := Entity.placeholder (← text j "entity")
    pure (.create e (← need (← field j "data").fields?))
  | _ => throw .malformed

def hook (j : Json) : Read Hook := do
  let event ← need (HookEvent.ofName? (← text j "event"))
  let steps ← (items j "actions").mapM hookStep
  pure ⟨← text j "entity", event, HookStep.runAll steps⟩

/-- A step of a middleware; a result ends the list. -/
abbrev MiddlewareStep := Exchange → StateM Env (Option (Except ApiError Flow) × Exchange)

namespace MiddlewareStep

def edit (f : Exchange → Exchange) : MiddlewareStep := fun x => pure (none, f x)

def editRequest (f : Request → Request) : MiddlewareStep :=
  edit fun x => { x with request := f x.request }

def editHeaders (f : Headers → Headers) : MiddlewareStep :=
  edit fun x => { x with staged := { x.staged with headers := f x.staged.headers } }

/-- Notes which request the middleware saw. -/
def note (name : String) : MiddlewareStep := fun x => do
  modify fun env => { env with journal := env.journal ++ [Json.object
    [("middleware", .str name), ("method", .str x.request.method), ("path", .str x.request.path)]] }
  pure (none, x)

/-- Answers the request with the staged response. -/
def stop (status : Nat) (body : Json) : MiddlewareStep := fun x =>
  pure (some (.ok .stop), { x with staged := { x.staged with status, body } })

def runAll : List MiddlewareStep → Exchange → StateM Env (Except ApiError Flow × Exchange)
  | [], x => pure (.ok .next, x)
  | step :: steps, x => do
    match ← step x with
    | (none, x) => runAll steps x
    | (some r, x) => pure (r, x)

end MiddlewareStep

def middlewareStep (name : String) (j : Json) : Read MiddlewareStep := do
  let body := (j.field? "body").getD .null
  match ← text j "do" with
  | "log" => pure (.note name)
  | "context" =>
    let k ← text j "key"
    let v ← field j "value"
    pure (.editRequest fun r => { r with context := r.context.insert k v })
  | "setPath" =>
    let path ← text j "value"
    pure (.editRequest fun r => { r with path })
  | "setQuery" =>
    let k ← text j "key"
    let v ← text j "value"
    pure (.editRequest fun r => { r with query := r.query.insert k v })
  | "setBody" =>
    let body ← field j "value"
    pure (.editRequest fun r => { r with body })
  | "setUser" =>
    let user ← optional j "value" user
    pure (.editRequest fun r => { r with user })
  | "setHeader" =>
    let (k, v) ← textPair (← field j "value")
    pure (.editHeaders (·.set k v))
  | "appendHeader" =>
    let (k, v) ← textPair (← field j "value")
    pure (.editHeaders (·.append k v))
  | "endUnlessHeader" =>
    let k ← text j "key"
    let stop := MiddlewareStep.stop ((nat? j "status").getD 401) body
    pure fun x => if (x.request.header? k).isSome then pure (none, x) else stop x
  | "end" => pure (.stop ((nat? j "status").getD 200) body)
  | "fail" =>
    let e ← apiError j
    pure fun x => pure (some (.error e), x)
  | _ => throw .malformed

def middleware (j : Json) : Read Middleware := do
  let name ← text j "name"
  let steps ← (items j "actions").mapM (middlewareStep name)
  pure ⟨name, MiddlewareStep.runAll steps⟩

end Blueprint

end EntityRest
