import EntityRest.Access.Rule
import EntityRest.Driver.Basic
import EntityRest.Hook.Event

/-!
Hooks: callbacks that run around the operations on an entity.

A hook receives the context of the operation and hands it on, changed or not. A hook that stops the
context ends the chain, and the operation answers with the resource that the context then holds.
-/

namespace EntityRest

/-- What a hook sees and may change. -/
structure HookContext where
  entity : String
  operation : Operation
  user : Option User
  /-- The validated data of a write. -/
  input : Fields
  /-- The record at hand, or the result after the operation. -/
  resource : Option Json
  filter : Filter
  stopped : Bool
  connection : Connection

namespace HookContext

/-- Ends the operation with a resource to answer with. -/
def stopWith (ctx : HookContext) (resource : Json) : HookContext :=
  { ctx with resource := some resource, stopped := true }

end HookContext

/-- A hook, registered for an event of one entity or of all entities. -/
structure Hook where
  entity : String
  event : HookEvent
  run : HookContext → Action ApiError HookContext

namespace Hook

/-- The name that stands for every entity. -/
def anyEntity : String := "*"

def appliesTo (h : Hook) (entity : String) (event : HookEvent) : Bool :=
  h.event = event && (h.entity = anyEntity || h.entity = entity)

end Hook

/-- Runs the hooks for an event in the order of their registration, until one stops the context. -/
def runHooks : List Hook → HookEvent → HookContext → Action ApiError HookContext
  | [], _, ctx => pure ctx
  | h :: hooks, event, ctx => do
    if ctx.stopped then pure ctx
    else if h.appliesTo ctx.entity event then
      let ctx ← h.run ctx
      runHooks hooks event ctx
    else runHooks hooks event ctx

end EntityRest
