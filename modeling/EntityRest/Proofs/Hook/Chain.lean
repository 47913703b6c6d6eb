import EntityRest.Hook.Chain
import EntityRest.Proofs.Effect.Action

/-! # Which hooks of a chain run

A chain that goes through without a stop has run exactly the hooks for its event and entity, each once and in
their order (`runHooks_eq_ok_iff`, where `Passes` is such a run); a hook that stops it has the last word
(`runOn_runHooks_of_stop`). Both need that hooks leave the name of the entity alone, by which the later ones are
chosen. -/

namespace EntityRest

variable {hook : Hook} {hooks : List Hook} {event : HookEvent} {ctx ctx' : HookContext} {env env' : Env}

/-! ### Steps of a chain -/

theorem runHooks_of_stopped (h : ctx.stopped = true) : runHooks hooks event ctx = pure ctx := by
  cases hooks with
  | nil => rfl
  | cons hook hooks => exact if_pos h

theorem runHooks_cons_of_applies (hctx : ctx.stopped = false) (h : hook.appliesTo ctx.entity event = true) :
    runHooks (hook :: hooks) event ctx = hook.run ctx >>= runHooks hooks event := by
  rw [runHooks, hctx, if_neg Bool.false_ne_true, if_pos h]

theorem runHooks_cons_of_not_applies (h : hook.appliesTo ctx.entity event = false) :
    runHooks (hook :: hooks) event ctx = runHooks hooks event ctx := by
  rw [runHooks, h]
  split
  · next hstop => rw [runHooks_of_stopped hstop]
  · rfl

theorem runHooks_append (hooks later : List Hook) (event : HookEvent) (ctx : HookContext) :
    runHooks (hooks ++ later) event ctx = runHooks hooks event ctx >>= runHooks later event := by
  induction hooks generalizing ctx with
  | nil => rw [List.nil_append, runHooks, pure_bind]
  | cons hook hooks ih =>
    cases hctx : ctx.stopped with
    | true => rw [runHooks_of_stopped hctx, runHooks_of_stopped hctx, pure_bind, runHooks_of_stopped hctx]
    | false =>
      rw [List.cons_append]
      cases happlies : hook.appliesTo ctx.entity event with
      | true =>
        rw [runHooks_cons_of_applies hctx happlies, runHooks_cons_of_applies hctx happlies, bind_assoc]
        exact bind_congr ih
      | false => rw [runHooks_cons_of_not_applies happlies, runHooks_cons_of_not_applies happlies, ih]

theorem runHooks_of_not_applies (h : ∀ hook ∈ hooks, hook.appliesTo ctx.entity event = false) :
    runHooks hooks event ctx = pure ctx := by
  induction hooks with
  | nil => rfl
  | cons hook hooks ih =>
    obtain ⟨hhook, hhooks⟩ := List.forall_mem_cons.1 h
    rw [runHooks_cons_of_not_applies hhook, ih hhooks]

theorem runHooks_of_forall_ne (h : ∀ hook ∈ hooks, hook.event ≠ event) : runHooks hooks event ctx = pure ctx := by
  refine runHooks_of_not_applies fun hook hhook => ?_
  rw [Hook.appliesTo, decide_eq_false (h hook hhook), Bool.false_and]

/-- A chain that ends stopped was stopped by one of its hooks, which had the last word. -/
theorem exists_hook_of_stopped (hctx : ctx.stopped = false)
    (h : (runHooks hooks event ctx).runOn env = (.ok ctx', env')) (hstop : ctx'.stopped = true) :
    ∃ hook ∈ hooks, hook.event = event ∧
      ∃ given env₀, given.stopped = false ∧ (hook.run given).runOn env₀ = (.ok ctx', env') := by
  induction hooks generalizing ctx env with
  | nil => cases h; rw [hctx] at hstop; cases hstop
  | cons hook hooks ih =>
    have hlater : ∀ {ctx env}, ctx.stopped = false →
        (runHooks hooks event ctx).runOn env = (.ok ctx', env') →
        ∃ hook' ∈ hook :: hooks, hook'.event = event ∧ ∃ given env₀,
          given.stopped = false ∧ (hook'.run given).runOn env₀ = (.ok ctx', env') := by
      intro ctx env hctx h
      obtain ⟨hook', hmem, hlast⟩ := ih hctx h
      exact ⟨hook', List.mem_cons_of_mem _ hmem, hlast⟩
    cases happlies : hook.appliesTo ctx.entity event with
    | true =>
      rw [runHooks_cons_of_applies hctx happlies] at h
      obtain ⟨ctx₁, env₁, hrun, h⟩ := Action.runOn_bind_eq_ok h
      cases hstopped : ctx₁.stopped with
      | false => exact hlater hstopped h
      | true =>
        rw [runHooks_of_stopped hstopped] at h
        cases h
        have hevent : hook.event = event := by
          simp only [Hook.appliesTo, Bool.and_eq_true, decide_eq_true_eq] at happlies
          exact happlies.1
        exact ⟨hook, List.mem_cons_self, hevent, ctx, env, hctx, hrun⟩
    | false =>
      rw [runHooks_cons_of_not_applies happlies] at h
      exact hlater hctx h

/-! ### Hooks that go through -/

/-- The hooks run one after the other, each from what the one before it has left, and none fails or stops. -/
inductive Passes : List Hook → HookContext → Env → HookContext → Env → Prop
  | nil {ctx : HookContext} {env : Env} : Passes [] ctx env ctx env
  | cons {hook : Hook} {hooks : List Hook} {ctx ctx₁ ctx' : HookContext} {env env₁ env' : Env}
      (hrun : (hook.run ctx).runOn env = (.ok ctx₁, env₁)) (hgoing : ctx₁.stopped = false)
      (hrest : Passes hooks ctx₁ env₁ ctx' env') : Passes (hook :: hooks) ctx env ctx' env'

/-- Leaves the name of the entity in the context alone. -/
def Hook.KeepsEntity (h : Hook) : Prop :=
  ∀ ctx env ctx' env', (h.run ctx).runOn env = (.ok ctx', env') → ctx'.entity = ctx.entity

theorem Passes.stopped (h : Passes hooks ctx env ctx' env') (hctx : ctx.stopped = false) :
    ctx'.stopped = false := by
  induction h with
  | nil => exact hctx
  | cons _ hgoing _ ih => exact ih hgoing

theorem Passes.entity (h : Passes hooks ctx env ctx' env') (hkeep : ∀ hook ∈ hooks, hook.KeepsEntity) :
    ctx'.entity = ctx.entity := by
  induction h with
  | nil => rfl
  | cons hrun _ _ ih =>
    obtain ⟨hhook, hhooks⟩ := List.forall_mem_cons.1 hkeep
    exact (ih hhooks).trans (hhook _ _ _ _ hrun)

/-- A chain ends without a stop just if the hooks for its event and entity run, each once and in their order, and
none of them fails or stops. -/
theorem runHooks_eq_ok_iff {entity : String} (hentity : ctx.entity = entity)
    (hkeep : ∀ hook ∈ hooks.filter (·.appliesTo entity event), hook.KeepsEntity) (hctx : ctx.stopped = false) :
    (runHooks hooks event ctx).runOn env = (.ok ctx', env') ∧ ctx'.stopped = false ↔
      Passes (hooks.filter (·.appliesTo entity event)) ctx env ctx' env' := by
  induction hooks generalizing ctx env with
  | nil =>
    constructor
    · rintro ⟨⟨⟩, -⟩; exact .nil
    · rintro ⟨⟩; exact ⟨rfl, hctx⟩
  | cons hook hooks ih =>
    cases happlies : hook.appliesTo entity event with
    | false =>
      have hfilter : (hook :: hooks).filter (·.appliesTo entity event) = hooks.filter (·.appliesTo entity event) :=
        List.filter_cons_of_neg (by simp [happlies])
      rw [hfilter] at hkeep ⊢
      rw [runHooks_cons_of_not_applies (hentity.symm ▸ happlies)]
      exact ih hentity hkeep hctx
    | true =>
      have hfilter : (hook :: hooks).filter (·.appliesTo entity event) =
          hook :: hooks.filter (·.appliesTo entity event) := List.filter_cons_of_pos happlies
      rw [hfilter] at hkeep ⊢
      obtain ⟨hhook, hhooks⟩ := List.forall_mem_cons.1 hkeep
      rw [runHooks_cons_of_applies hctx (hentity.symm ▸ happlies)]
      constructor
      · rintro ⟨hrun, hgoing⟩
        obtain ⟨ctx₁, env₁, hfirst, hrest⟩ := Action.runOn_bind_eq_ok hrun
        have hgoing₁ : ctx₁.stopped = false := by
          cases hstop : ctx₁.stopped with
          | false => rfl
          | true =>
            rw [runHooks_of_stopped hstop] at hrest
            cases hrest
            exact hstop.symm.trans hgoing
        exact .cons hfirst hgoing₁
          ((ih ((hhook _ _ _ _ hfirst).trans hentity) hhooks hgoing₁).1 ⟨hrest, hgoing⟩)
      · rintro (_ | ⟨hfirst, hgoing₁, hrest⟩)
        rw [Action.runOn_bind, hfirst]
        exact (ih ((hhook _ _ _ _ hfirst).trans hentity) hhooks hgoing₁).2 hrest

/-- The first hook that stops ends the chain: those for another event or entity and those after it do not run. -/
theorem runOn_runHooks_of_stop {earlier later : List Hook} {given : HookContext} {env₁ : Env}
    (hsplit : hooks.filter (·.appliesTo ctx.entity event) = earlier ++ hook :: later)
    (hkeep : ∀ hook ∈ earlier, hook.KeepsEntity) (hctx : ctx.stopped = false)
    (hearlier : Passes earlier ctx env given env₁) (hrun : (hook.run given).runOn env₁ = (.ok ctx', env'))
    (hstop : ctx'.stopped = true) : (runHooks hooks event ctx).runOn env = (.ok ctx', env') := by
  obtain ⟨before, rest, rfl, hbefore, hrest⟩ := List.filter_eq_append_iff.1 hsplit
  obtain ⟨skipped, after, rfl, hskipped, happlies, -⟩ := List.filter_eq_cons_iff.1 hrest
  have hfront : (before ++ skipped).filter (·.appliesTo ctx.entity event) = earlier := by
    rw [List.filter_append, hbefore, List.filter_eq_nil_iff.2 hskipped, List.append_nil]
  have hpass := ((runHooks_eq_ok_iff rfl (hfront.symm ▸ hkeep) hctx).2 (hfront.symm ▸ hearlier)).1
  rw [← hearlier.entity hkeep] at happlies
  rw [← List.append_assoc, runHooks_append, Action.runOn_bind, hpass]
  dsimp only
  rw [runHooks_cons_of_applies (hearlier.stopped hctx) happlies, Action.runOn_bind, hrun]
  dsimp only
  rw [runHooks_of_stopped hstop]
  rfl

/-! ### Hooks that leave the driver alone -/

/-- Neither uses the driver nor chooses another entity: the tables stay as they are, and with another connection
in its context the hook does the same up to the connection. -/
structure Hook.LeavesDriver (h : Hook) : Prop where
  entity : h.KeepsEntity
  tables : ∀ ctx env, ((h.run ctx).runOn env).2.tables = env.tables
  blind : ∀ ctx env c, ∃ c', (h.run { ctx with connection := c }).runOn env =
    (((h.run ctx).runOn env).1.map ({ · with connection := c' }), ((h.run ctx).runOn env).2)

theorem Hook.LeavesDriver.tables_of_runOn {r : Except ApiError HookContext} (h : hook.LeavesDriver)
    (hrun : (hook.run ctx).runOn env = (r, env')) : env'.tables = env.tables := by
  rw [← h.tables ctx env, hrun]

theorem Hook.LeavesDriver.runOn_of_ok (h : hook.LeavesDriver)
    (hrun : (hook.run ctx).runOn env = (.ok ctx', env')) (c : Connection) :
    ∃ c', (hook.run { ctx with connection := c }).runOn env = (.ok { ctx' with connection := c' }, env') := by
  obtain ⟨c', hc'⟩ := h.blind ctx env c
  rw [hrun] at hc'
  exact ⟨c', hc'⟩

theorem Passes.tables (h : Passes hooks ctx env ctx' env') (hhooks : ∀ hook ∈ hooks, hook.LeavesDriver) :
    env'.tables = env.tables := by
  induction h with
  | nil => rfl
  | cons hrun _ _ ih =>
    obtain ⟨hhook, hhooks⟩ := List.forall_mem_cons.1 hhooks
    exact (ih hhooks).trans (hhook.tables_of_runOn hrun)

theorem Passes.connection (h : Passes hooks ctx env ctx' env') (hhooks : ∀ hook ∈ hooks, hook.LeavesDriver)
    (c : Connection) :
    ∃ c', Passes hooks { ctx with connection := c } env { ctx' with connection := c' } env' := by
  induction h generalizing c with
  | nil => exact ⟨c, .nil⟩
  | cons hrun hgoing _ ih =>
    obtain ⟨hhook, hhooks⟩ := List.forall_mem_cons.1 hhooks
    obtain ⟨c₁, hrun'⟩ := hhook.runOn_of_ok hrun c
    obtain ⟨c', hrest'⟩ := ih hhooks c₁
    exact ⟨c', .cons hrun' hgoing hrest'⟩

end EntityRest
