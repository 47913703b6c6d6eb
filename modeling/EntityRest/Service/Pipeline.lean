import EntityRest.Access.Check
import EntityRest.Hook.Chain
import EntityRest.Http.Message
import EntityRest.Query.List
import EntityRest.Validation.Input

/-!
The steps of an operation on an entity: validation, rules, hooks and the driver, in a fixed order.

* list: rules, before-hooks, search and count, after-hooks
* create: validation, rules, owner key, before-hooks, creation, after-hooks
* read: before-hooks, look-up, rules on the record, after-hooks
* update: look-up, validation, rules on the record, before-hooks, update, after-hooks
* delete: look-up, rules on the record, before-hooks, removal, after-hooks

A before-hook that stops the context leaves out everything after it.
-/

namespace EntityRest

/-- What an operation works with. -/
structure Pipeline where
  entity : Entity
  connection : Connection
  hooks : List Hook

namespace Pipeline

variable (p : Pipeline)

/-- Makes the errors of the driver request errors. -/
def onDriver {α : Type} (act : Action DriverError α) : Action ApiError α :=
  act.mapError DriverError.toApiError

def recordNotFound : ApiError := .notFound (p.entity.name ++ " not found")

/-- The context in which the hooks of an operation start. -/
def context (op : Operation) (req : Request) : HookContext :=
  { entity := p.entity.name
    operation := op
    user := req.user
    input := []
    resource := none
    filter := ∅
    stopped := false
    connection := p.connection }

/-- Fails unless the rules of an operation allow it. -/
def authorize (op : Operation) (req : Request) (resource input : Option Json) :
    Action ApiError Unit :=
  Action.ofExcept <| (Access.check p.entity op
    { entity := p.entity.name, operation := op, user := req.user, resource, input }).mapError
      Denial.toApiError

/-- The stored record that a filter selects. -/
def fetch (f : Filter) : Action ApiError Json := do
  match ← onDriver (p.connection.findOne p.entity f) with
  | some record => pure record
  | none => throw p.recordNotFound

/-- The stored record with the relations that a request asks for. -/
def fetchWith (f : Filter) (names : List String) : Action ApiError Json := do
  match ← onDriver (p.connection.findOneWith p.entity f names) with
  | some record => pure record
  | none => throw p.recordNotFound

/-- The body that a context answers with. -/
def answer (ctx : HookContext) : Json := ctx.resource.getD .null

/-- The page that a list request is answered with. -/
def page (data : List Json) (total : Nat) (q : ListQuery) : Json :=
  Json.object
    [("data", .arr data),
      ("pagination", Json.object
        [("total", .int total), ("limit", .int q.take), ("offset", .int q.skip)])]

/-- The search of a list request; conditions that hooks set win over those of the request. -/
def searchOf (q : ListQuery) (hookFilter : Filter) : Search :=
  { filter := q.filter.union hookFilter
    sort := q.sort
    take := some q.take
    skip := some q.skip
    embed := q.embed }

def list (req : Request) : Action ApiError Response := do
  p.authorize .list req none none
  let ctx ← runHooks p.hooks (.before .list) (p.context .list req)
  if ctx.stopped then pure (.ok (answer ctx))
  else
    let q := ListQuery.ofParams req.query
    let search := searchOf q ctx.filter
    let data ← onDriver (p.connection.findMany p.entity search)
    let total ← onDriver (p.connection.count p.entity (some search.filter))
    let ctx ← runHooks p.hooks (.after .list)
      { ctx with filter := search.filter, resource := some (page data total q) }
    pure (.ok (answer ctx))

/-- The data of a create, with the user as owner where the entity has one. -/
def withOwner (user : Option User) (data : Fields) : Fields :=
  match p.entity.ownerField, user with
  | some key, some u => data.insert key (.str u.id)
  | _, _ => data

def create (req : Request) : Action ApiError Response := do
  let data ← Action.ofExcept (Validation.input p.entity .create req.body).toExcept
  p.authorize .create req none (some (.obj data))
  let ctx ← runHooks p.hooks (.before .create)
    { p.context .create req with input := p.withOwner req.user data }
  if ctx.stopped then pure (.created (answer ctx))
  else
    let record ← onDriver (p.connection.create p.entity ctx.input)
    let ctx ← runHooks p.hooks (.after .create) { ctx with resource := some record }
    pure (.created (answer ctx))

def read (id : String) (req : Request) : Action ApiError Response := do
  let ctx ← runHooks p.hooks (.before .read) { p.context .read req with filter := Filter.ofId id }
  if ctx.stopped then pure (.ok (answer ctx))
  else
    let record ← p.fetch ctx.filter
    p.authorize .read req (some record) none
    let names := (ListQuery.ofParams req.query).embed
    let record ← if names.isEmpty then pure record else p.fetchWith ctx.filter names
    let ctx ← runHooks p.hooks (.after .read) { ctx with resource := some record }
    pure (.ok (answer ctx))

def update (id : String) (req : Request) : Action ApiError Response := do
  let filter := Filter.ofId id
  let existing ← p.fetch filter
  let data ← Action.ofExcept (Validation.input p.entity .update req.body).toExcept
  p.authorize .update req (some existing) (some (.obj data))
  let ctx ← runHooks p.hooks (.before .update)
    { p.context .update req with input := data, resource := some existing, filter }
  if ctx.stopped then pure (.ok (answer ctx))
  else
    let record ← onDriver (p.connection.update p.entity ctx.filter ctx.input)
    let ctx ← runHooks p.hooks (.after .update) { ctx with resource := some record }
    pure (.ok (answer ctx))

def delete (id : String) (req : Request) : Action ApiError Response := do
  let filter := Filter.ofId id
  let existing ← p.fetch filter
  p.authorize .delete req (some existing) none
  let ctx ← runHooks p.hooks (.before .delete)
    { p.context .delete req with resource := some existing, filter }
  if ctx.stopped then pure .noContent
  else
    onDriver (p.connection.delete p.entity ctx.filter)
    let _ ← runHooks p.hooks (.after .delete) ctx
    pure .noContent

/-- Carries an operation out; those on one record need its id. -/
def execute (op : Operation) (id : Option String) (req : Request) : Action ApiError Response :=
  match op, id with
  | .list, _ => p.list req
  | .create, _ => p.create req
  | .read, some id => p.read id req
  | .update, some id => p.update id req
  | .delete, some id => p.delete id req
  | _, none => throw .routeNotFound

end Pipeline

end EntityRest
