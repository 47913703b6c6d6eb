import EntityRest.Proofs.Service.Authorization
import EntityRest.Proofs.Service.Read

/-! # The stages of an operation

Every operation opens, runs the hooks before it, does its work, runs the hooks after it and replies; if the hooks
before it stop it, the reply follows at once. The five operations differ in what they open with, in their work
and in the form of the reply, and in nothing else (`execute_eq_stages`). -/

namespace EntityRest.Pipeline

variable {p : Pipeline} {op : Operation} {id : Option String} {req : Request}

/-- The context in which hooks start, once the rules have been asked about a subject. -/
def start (p : Pipeline) (req : Request) : Subject → HookContext
  | .list => p.context .list req
  | .create data => { p.context .create req with input := p.withOwner req.user data }
  | .update id existing data =>
    { p.context .update req with input := data, resource := some existing, filter := Filter.ofId id }
  | .delete id existing =>
    { p.context .delete req with resource := some existing, filter := Filter.ofId id }

/-- What an operation does before its hooks: to look up, validate and ask the rules, or for a read nothing. -/
def opening (p : Pipeline) (op : Operation) (id : Option String) (req : Request) :
    Action ApiError HookContext :=
  match op, id with
  | .read, some id => pure (p.readContext id req)
  | op, id => do
    let s ← p.subject op id req
    p.authorize op req s.resource s.input
    pure (p.start req s)

/-- What an operation does between the hooks before it and those after it. -/
def work (p : Pipeline) (op : Operation) (req : Request) (ctx : HookContext) : Action ApiError HookContext :=
  match op with
  | .list => do
    let q := ListQuery.ofParams req.query
    let search := searchOf q ctx.filter
    let data ← onDriver (p.connection.findMany p.entity search)
    let total ← onDriver (p.connection.count p.entity (some search.filter))
    pure { ctx with filter := search.filter, resource := some (page data total q) }
  | .create => do
    let record ← onDriver (p.connection.create p.entity ctx.input)
    pure { ctx with resource := some record }
  | .read => do
    let record ← p.fetch ctx.filter
    p.authorize .read req (some record) none
    let names := (ListQuery.ofParams req.query).embed
    let record ← if names.isEmpty then pure record else p.fetchWith ctx.filter names
    pure { ctx with resource := some record }
  | .update => do
    let record ← onDriver (p.connection.update p.entity ctx.filter ctx.input)
    pure { ctx with resource := some record }
  | .delete => do
    onDriver (p.connection.delete p.entity ctx.filter)
    pure ctx

/-- The response that an operation ends with. -/
def reply (op : Operation) (ctx : HookContext) : Response :=
  match op with
  | .create => .created (answer ctx)
  | .delete => .noContent
  | _ => .ok (answer ctx)

theorem execute_eq_stages : p.execute op id req = (do
    let ctx ← p.opening op id req
    let ctx ← runHooks p.hooks (.before op) ctx
    if ctx.stopped then pure (reply op ctx)
    else do
      let ctx ← p.work op req ctx
      let ctx ← runHooks p.hooks (.after op) ctx
      pure (reply op ctx)) := by
  cases op with
  | list =>
    unfold execute list opening work
    simp only [bind_assoc, pure_bind]
    rfl
  | create =>
    unfold execute create opening work subject Subject.find
    simp only [bind_assoc, pure_bind]
    rfl
  | read =>
    cases id with
    | none => rfl
    | some id =>
      unfold execute read opening work
      by_cases hnames : (ListQuery.ofParams req.query).embed.isEmpty = true
      · simp only [hnames, if_true, bind_assoc, pure_bind]
        rfl
      · simp only [hnames, if_false, Bool.false_eq_true, bind_assoc, pure_bind]
        rfl
  | update =>
    cases id with
    | none => rfl
    | some id =>
      unfold execute update opening work subject Subject.find
      simp only [bind_assoc, pure_bind]
      rfl
  | delete =>
    cases id with
    | none => rfl
    | some id =>
      unfold execute delete opening work subject Subject.find
      simp only [bind_assoc, pure_bind]
      rfl

end EntityRest.Pipeline
