import Mathlib.Data.List.Forall2
import EntityRest.Proofs.Effect.Alike
import EntityRest.Proofs.Service.Stages

/-! # Pipelines that differ in hidden messages only

Hooks are given a connection, and so are compared as functions are: hooks are alike if they make related contexts
of related ones. The parameter `C` says which connections a context may hold in the one run and in the other. It is
equality as long as both runs have the same driver. The operations of two pipelines are alike if their drivers
and hooks are (`Alike.execute`), stage by stage. Where the calls of the operations alone differ (`executeOver`), the
hooks can be any (`executeOver_alike`). -/

namespace EntityRest

variable {C : Connection → Connection → Prop}

/-! ### Hooks -/

/-- Contexts that are the same but for their connections. -/
def HookContext.Alike (C : Connection → Connection → Prop) (ctx ctx' : HookContext) : Prop :=
  ∃ c, C ctx.connection c ∧ ctx' = { ctx with connection := c }

/-- Hooks of one event and entity that do alike with related connections in their contexts. -/
structure Hook.Alike (C : Connection → Connection → Prop) (h h' : Hook) : Prop where
  entity : h'.entity = h.entity
  event : h'.event = h.event
  run : ∀ ctx ctx', ctx.Alike C ctx' → (h.run ctx).Alike ApiError.Alike (HookContext.Alike C) (h'.run ctx')

theorem HookContext.Alike.stopped {ctx ctx' : HookContext} (h : ctx.Alike C ctx') :
    ctx'.stopped = ctx.stopped := by
  obtain ⟨c, -, rfl⟩ := h
  rfl

theorem HookContext.Alike.entity {ctx ctx' : HookContext} (h : ctx.Alike C ctx') : ctx'.entity = ctx.entity := by
  obtain ⟨c, -, rfl⟩ := h
  rfl

theorem HookContext.alike_eq_iff {ctx ctx' : HookContext} : ctx.Alike Eq ctx' ↔ ctx = ctx' := by
  constructor
  · rintro ⟨c, rfl, rfl⟩; rfl
  · rintro rfl; exact ⟨_, rfl, rfl⟩

theorem Hook.alike_of_run {entity : String} {event : HookEvent}
    {run run' : HookContext → Action ApiError HookContext}
    (h : ∀ ctx, (run ctx).Alike ApiError.Alike Eq (run' ctx)) :
    Hook.Alike Eq ⟨entity, event, run⟩ ⟨entity, event, run'⟩ where
  entity := rfl
  event := rfl
  run ctx ctx' hctx := by
    obtain rfl := HookContext.alike_eq_iff.1 hctx
    exact (h ctx).mono fun _ _ => HookContext.alike_eq_iff.2

theorem Hook.Alike.refl (h : Hook) : h.Alike Eq h := Hook.alike_of_run fun _ => Action.alike_self _

theorem runHooks_alike {hooks hooks' : List Hook} (h : List.Forall₂ (Hook.Alike C) hooks hooks')
    {event : HookEvent} {ctx ctx' : HookContext} (hctx : ctx.Alike C ctx') :
    (runHooks hooks event ctx).Alike ApiError.Alike (HookContext.Alike C) (runHooks hooks' event ctx') := by
  induction h generalizing ctx ctx' with
  | nil => exact .pure hctx
  | @cons hook hook' hooks hooks' hhook _ ih =>
    have hsame : hook'.appliesTo ctx'.entity event = hook.appliesTo ctx.entity event := by
      rw [Hook.appliesTo, Hook.appliesTo, hhook.entity, hhook.event, hctx.entity]
    cases hstop : ctx.stopped with
    | true =>
      rw [runHooks_of_stopped hstop, runHooks_of_stopped (hctx.stopped.trans hstop)]
      exact .pure hctx
    | false =>
      cases happlies : hook.appliesTo ctx.entity event with
      | true =>
        rw [runHooks_cons_of_applies hstop happlies,
          runHooks_cons_of_applies (hctx.stopped.trans hstop) (hsame.trans happlies)]
        exact (hhook.run _ _ hctx).bind fun _ _ => ih
      | false =>
        rw [runHooks_cons_of_not_applies happlies, runHooks_cons_of_not_applies (hsame.trans happlies)]
        exact ih hctx

/-! ### Drivers -/

/-- Connections whose calls do alike. -/
structure Connection.Alike (c c' : Connection) : Prop where
  findOne : ∀ e f, (c.findOne e f).Alike DriverError.Alike Eq (c'.findOne e f)
  findOneWith : ∀ e f names, (c.findOneWith e f names).Alike DriverError.Alike Eq (c'.findOneWith e f names)
  findMany : ∀ e q, (c.findMany e q).Alike DriverError.Alike Eq (c'.findMany e q)
  create : ∀ e data, (c.create e data).Alike DriverError.Alike Eq (c'.create e data)
  update : ∀ e f data, (c.update e f data).Alike DriverError.Alike Eq (c'.update e f data)
  delete : ∀ e f, (c.delete e f).Alike DriverError.Alike Eq (c'.delete e f)
  count : ∀ e f, (c.count e f).Alike DriverError.Alike Eq (c'.count e f)

/-- Drivers whose calls do alike in every scope. -/
def Driver.Alike (d d' : Driver) : Prop := ∀ scope, Connection.Alike ⟨d, scope⟩ ⟨d', scope⟩

theorem Connection.Alike.refl (c : Connection) : c.Alike c := by
  constructor <;> intros <;> exact .refl DriverError.Alike.refl (fun _ => rfl) _

namespace Pipeline

theorem onDriver_alike {α β : Type} {R : α → β → Prop} {act : Action DriverError α} {act' : Action DriverError β}
    (h : act.Alike DriverError.Alike R act') : (onDriver act).Alike ApiError.Alike R (onDriver act') :=
  h.mapError fun _ _ => id

/-- Pipelines of one entity whose calls to their drivers do alike. -/
structure CallsAlike (p p' : Pipeline) : Prop where
  entity : p'.entity = p.entity
  connection : p.connection.Alike p'.connection

/-- Pipelines of one entity whose drivers and hooks do alike. -/
structure Alike (C : Connection → Connection → Prop) (p p' : Pipeline) : Prop extends CallsAlike p p' where
  context : C p.connection p'.connection
  hooks : List.Forall₂ (Hook.Alike C) p.hooks p'.hooks

end Pipeline

/-- Finding out what the rules are asked about is alike if looking up is. -/
theorem Subject.find_alike {e : Entity} {look look' : Filter → Action DriverError (Option Json)}
    (hlook : ∀ f, (look f).Alike DriverError.Alike Eq (look' f)) (op : Operation) (id : Option String)
    (req : Request) : (find e look op id req).Alike ApiError.Alike Eq (find e look' op id req) := by
  have hexisting (id : String) : (existing e look id).Alike ApiError.Alike Eq (existing e look' id) :=
    (Pipeline.onDriver_alike (hlook _)).bind_eq fun found => Action.alike_self _
  cases op with
  | list => exact Action.alike_self _
  | create => exact Action.alike_self _
  | read => cases id <;> exact Action.alike_self _
  | update =>
    cases id with
    | none => exact Action.alike_self _
    | some id => exact (hexisting id).bind_eq fun record => Action.alike_self _
  | delete =>
    cases id with
    | none => exact Action.alike_self _
    | some id => exact (hexisting id).bind_eq fun record => Action.alike_self _

namespace Pipeline

variable {p p' : Pipeline} {op : Operation} {id : Option String} {req : Request} {ctx ctx' : HookContext}

namespace CallsAlike

theorem fetch (h : p.CallsAlike p') (f : Filter) : (p.fetch f).Alike ApiError.Alike Eq (p'.fetch f) := by
  unfold Pipeline.fetch recordNotFound
  rw [h.entity]
  exact (onDriver_alike (h.connection.findOne _ _)).bind_eq fun found => Action.alike_self _

theorem fetchWith (h : p.CallsAlike p') (f : Filter) (names : List String) :
    (p.fetchWith f names).Alike ApiError.Alike Eq (p'.fetchWith f names) := by
  unfold Pipeline.fetchWith recordNotFound
  rw [h.entity]
  exact (onDriver_alike (h.connection.findOneWith _ _ _)).bind_eq fun found => Action.alike_self _

theorem authorize (h : p.CallsAlike p') (op : Operation) (req : Request) (resource input : Option Json) :
    (p.authorize op req resource input).Alike ApiError.Alike Eq (p'.authorize op req resource input) := by
  rw [Pipeline.authorize, Pipeline.authorize, h.entity]
  exact Action.alike_self _

theorem opening (h : p.CallsAlike p') (hcontext : C p.connection p'.connection) :
    (p.opening op id req).Alike ApiError.Alike (HookContext.Alike C) (p'.opening op id req) := by
  have hgated : (do
      let s ← p.subject op id req
      p.authorize op req s.resource s.input
      pure (p.start req s)).Alike ApiError.Alike (HookContext.Alike C) (do
      let s ← p'.subject op id req
      p'.authorize op req s.resource s.input
      pure (p'.start req s)) := by
    refine Action.Alike.bind_eq ?_ fun s => (h.authorize _ _ _ _).bind_eq fun _ => .pure ?_
    · unfold subject
      rw [h.entity]
      exact Subject.find_alike (h.connection.findOne _) op id req
    · obtain ⟨e, c, hooks⟩ := p
      obtain ⟨e', c', hooks'⟩ := p'
      obtain ⟨rfl, -⟩ := h
      cases s <;> exact ⟨c', hcontext, rfl⟩
  have hread (id : String) : (p.readContext id req).Alike C (p'.readContext id req) := by
    obtain ⟨e, c, hooks⟩ := p
    obtain ⟨e', c', hooks'⟩ := p'
    obtain ⟨rfl, -⟩ := h
    exact ⟨c', hcontext, rfl⟩
  cases op with
  | read =>
    cases id with
    | none => exact hgated
    | some id => exact .pure (hread id)
  | list => exact hgated
  | create => exact hgated
  | update => exact hgated
  | delete => exact hgated

theorem work (h : p.CallsAlike p') (hctx : ctx.Alike C ctx') :
    (p.work op req ctx).Alike ApiError.Alike (HookContext.Alike C) (p'.work op req ctx') := by
  obtain ⟨c, hc, rfl⟩ := hctx
  have hread : (p.work .read req ctx).Alike ApiError.Alike (HookContext.Alike C)
      (p'.work .read req { ctx with connection := c }) := by
    refine (h.fetch _).bind_eq fun record => (h.authorize _ _ _ _).bind_eq fun _ => ?_
    dsimp only
    split
    · exact .pure ⟨c, hc, rfl⟩
    · exact (h.fetchWith _ _).bind_eq fun record => .pure ⟨c, hc, rfl⟩
  cases op with
  | list =>
    unfold Pipeline.work
    rw [h.entity]
    exact (onDriver_alike (h.connection.findMany _ _)).bind_eq fun data =>
      (onDriver_alike (h.connection.count _ _)).bind_eq fun total => .pure ⟨c, hc, rfl⟩
  | create =>
    unfold Pipeline.work
    rw [h.entity]
    exact (onDriver_alike (h.connection.create _ _)).bind_eq fun record => .pure ⟨c, hc, rfl⟩
  | read => exact hread
  | update =>
    unfold Pipeline.work
    rw [h.entity]
    exact (onDriver_alike (h.connection.update _ _ _)).bind_eq fun record => .pure ⟨c, hc, rfl⟩
  | delete =>
    unfold Pipeline.work
    rw [h.entity]
    exact (onDriver_alike (h.connection.delete _ _)).bind_eq fun _ => .pure ⟨c, hc, rfl⟩

end CallsAlike

theorem Alike.execute (h : p.Alike C p') :
    (p.execute op id req).Alike ApiError.Alike Eq (p'.execute op id req) := by
  have hreply {ctx ctx' : HookContext} (hctx : ctx.Alike C ctx') : reply op ctx = reply op ctx' := by
    obtain ⟨c, -, rfl⟩ := hctx
    cases op <;> rfl
  rw [execute_eq_stages, execute_eq_stages]
  refine (h.opening h.context).bind fun start start' hstart =>
    (runHooks_alike h.hooks hstart).bind fun ctx ctx' hctx => ?_
  rw [hctx.stopped]
  split
  · exact .pure (hreply hctx)
  · refine (h.work hctx).bind fun done done' hdone => (runHooks_alike h.hooks hdone).bind fun ctx ctx' hctx => ?_
    exact .pure (hreply hctx)

/-! ### Calls of the operation itself -/

end Pipeline

end EntityRest
