import EntityRest.Proofs.Service.Includes

/-! # Operations on one record

Where no hook is for the entity and all rules hold (`IsOpen`), an operation on one record is what the driver does
for its id: `runOn_read`, `runOn_update` and `runOn_delete` say with what it ends and what it leaves. -/

namespace EntityRest.Pipeline

open InMemory (nextStamp)

/-- No hook is for the entity, and its rules hold for every request. -/
structure IsOpen (p : Pipeline) : Prop where
  appliesTo : ∀ hook ∈ p.hooks, ∀ event, hook.appliesTo p.entity.name event = false
  allows : ∀ op ctx, Access.Allows p.entity op ctx

variable {p : Pipeline} {enforceKeys : Bool} {scope : Nat}

theorem IsOpen.runHooks_eq (h : p.IsOpen) {ctx : HookContext} (hctx : ctx.entity = p.entity.name)
    (event : HookEvent) : runHooks p.hooks event ctx = pure ctx :=
  runHooks_of_not_applies fun hook hhook => hctx ▸ h.appliesTo hook hhook event

theorem IsOpen.authorize_eq (h : p.IsOpen) (op : Operation) (req : Request) (resource input : Option Json) :
    p.authorize op req resource input = pure () := by
  rw [authorize, Access.check_eq_ok_iff.2 (h.allows op _)]
  rfl

variable (h : p.IsOpen) (hconnection : p.connection = InMemory.connect enforceKeys scope) (id : String)
  (req : Request) (env : Env)
include h hconnection

theorem runOn_read_of_isOpen :
    (p.read id req).runOn env =
      (((env.tables scope).find? p.entity (Filter.ofId id)).elim (.error p.recordNotFound) fun row =>
        .ok (.ok (p.shown req (env.tables scope) row)), env) := by
  have hbefore : runHooks p.hooks (.before .read) (p.readContext id req) = pure (p.readContext id req) :=
    h.runHooks_eq rfl _
  cases hfind : (env.tables scope).find? p.entity (Filter.ofId id) with
  | none =>
    rw [read, hbefore, pure_bind, if_neg (by simp [context]), Action.runOn_bind, runOn_fetch hconnection, hfind]
    rfl
  | some row =>
    have hrun : (runHooks p.hooks (.before .read) (p.readContext id req)).runOn env =
        (.ok (p.readContext id req), env) := by rw [hbefore]; rfl
    refine (runOn_read_eq_ok_iff hconnection hrun rfl _ _).2 ⟨row, hfind, h.allows _ _, ?_⟩
    rw [finishRead, h.runHooks_eq rfl]
    rfl

theorem runOn_update_of_isOpen {data : Fields}
    (hdata : (Validation.input p.entity .update req.body).toExcept = .ok data) :
    (p.update id req).runOn env =
      match (env.tables scope).find? p.entity (Filter.ofId id) with
      | none => (.error p.recordNotFound, env)
      | some _ =>
        match (env.tables scope).update enforceKeys p.entity (nextStamp env) (Filter.ofId id) data with
        | .ok (row, s) => (.ok (.ok (.obj row)), { env with issued := env.issued + 1 }.setTables scope s)
        | .error err => (.error err.toApiError, { env with issued := env.issued + 1 }) := by
  unfold update
  dsimp only
  rw [Action.runOn_bind, runOn_fetch hconnection]
  cases (env.tables scope).find? p.entity (Filter.ofId id) with
  | none => rfl
  | some old =>
    dsimp only [Option.elim_some]
    rw [hdata]
    show (p.authorize _ _ _ _ >>= _).runOn env = _
    rw [h.authorize_eq, pure_bind, h.runHooks_eq rfl, pure_bind]
    dsimp only
    rw [if_neg (by simp [context]), hconnection, InMemory.update_connect, Action.runOn_bind, onDriver,
      Action.runOn_mapError, InMemory.runOn_writing]
    cases (env.tables scope).update enforceKeys p.entity (nextStamp env) (Filter.ofId id) data with
    | error err => rfl
    | ok written =>
      dsimp only [Except.map, Except.mapError]
      rw [h.runHooks_eq rfl]
      rfl

theorem runOn_delete_of_isOpen :
    (p.delete id req).runOn env =
      match (env.tables scope).find? p.entity (Filter.ofId id) with
      | none => (.error p.recordNotFound, env)
      | some _ =>
        match (env.tables scope).delete p.entity (Filter.ofId id) with
        | .ok s => (.ok .noContent, { env with issued := env.issued + 1 }.setTables scope s)
        | .error err => (.error err.toApiError, { env with issued := env.issued + 1 }) := by
  unfold delete
  dsimp only
  rw [Action.runOn_bind, runOn_fetch hconnection]
  cases (env.tables scope).find? p.entity (Filter.ofId id) with
  | none => rfl
  | some old =>
    dsimp only [Option.elim_some]
    rw [h.authorize_eq, pure_bind, h.runHooks_eq rfl, pure_bind]
    dsimp only
    rw [if_neg (by simp [context]), hconnection, InMemory.delete_connect, Action.runOn_bind, onDriver,
      Action.runOn_mapError, InMemory.runOn_writing]
    cases (env.tables scope).delete p.entity (Filter.ofId id) with
    | error err => rfl
    | ok s =>
      dsimp only [Except.map, Except.mapError]
      rw [h.runHooks_eq rfl]
      rfl

end EntityRest.Pipeline
