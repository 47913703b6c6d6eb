import EntityRest.Proofs.Service.Stages

/-! # Operations that a hook stops

A hook that stops its context ends the hooks before the operation, and the reply follows at once: what the driver
could do but look up, and which hooks stand behind, makes no difference (`execute_stopped`). -/

namespace EntityRest.Pipeline

variable {p : Pipeline} {op : Operation} {id : Option String} {req : Request} {env : Env}

/-! ### What each stage leaves -/

theorem runOn_opening_eq_ok {ctx : HookContext} {env' : Env}
    (h : (p.opening op id req).runOn env = (.ok ctx, env')) :
    ctx.entity = p.entity.name ∧ ctx.stopped = false := by
  have hstart (s : Subject) : (p.start req s).entity = p.entity.name ∧ (p.start req s).stopped = false := by
    cases s <;> exact ⟨rfl, rfl⟩
  unfold opening at h
  split at h
  · cases h; exact ⟨rfl, rfl⟩
  · obtain ⟨s, env₁, -, h⟩ := Action.runOn_bind_eq_ok h
    obtain ⟨u, env₂, -, h⟩ := Action.runOn_bind_eq_ok h
    cases h
    exact hstart s

/-- Whatever else the driver can do, an operation needs nothing but its look-up up to the hooks. -/
theorem opening_congr {q : Pipeline} (hentity : q.entity = p.entity)
    (hlook : q.connection.findOne = p.connection.findOne) :
    q.opening op id req =
      p.opening op id req >>= fun ctx => pure { ctx with connection := q.connection } := by
  obtain ⟨e, c, hooks⟩ := q
  obtain rfl : e = p.entity := hentity
  have hstart (s : Subject) : start ⟨p.entity, c, hooks⟩ req s = { p.start req s with connection := c } := by
    cases s <;> rfl
  have hsubject : subject ⟨p.entity, c, hooks⟩ op id req = p.subject op id req :=
    congrArg (fun look => Subject.find p.entity (look p.entity) op id req) hlook
  unfold opening
  split
  · rfl
  · rw [hsubject, bind_assoc]
    refine bind_congr fun s => ?_
    rw [hstart, bind_assoc]
    rfl

theorem readOnly_opening (hlook : ∀ f, (p.connection.findOne p.entity f).ReadOnly) :
    (p.opening op id req).ReadOnly := by
  unfold opening
  split
  · exact Action.readOnly_pure _
  · exact (Subject.readOnly_find hlook _ _ _).bind fun s => readOnly_authorize.bind fun _ => Action.readOnly_pure _

theorem runOn_work_eq_ok {ctx ctx' : HookContext} {env' : Env}
    (h : (p.work op req ctx).runOn env = (.ok ctx', env')) :
    ctx'.entity = ctx.entity ∧ ctx'.stopped = ctx.stopped := by
  unfold work at h
  split at h
  · obtain ⟨data, env₁, -, h⟩ := Action.runOn_bind_eq_ok h
    obtain ⟨total, env₂, -, h⟩ := Action.runOn_bind_eq_ok h
    cases h; exact ⟨rfl, rfl⟩
  · obtain ⟨record, env₁, -, h⟩ := Action.runOn_bind_eq_ok h
    cases h; exact ⟨rfl, rfl⟩
  · obtain ⟨found, env₁, -, h⟩ := Action.runOn_bind_eq_ok h
    obtain ⟨u, env₂, -, h⟩ := Action.runOn_bind_eq_ok h
    dsimp only at h
    split at h
    · cases h; exact ⟨rfl, rfl⟩
    · obtain ⟨record, env₃, -, h⟩ := Action.runOn_bind_eq_ok h
      cases h; exact ⟨rfl, rfl⟩
  · obtain ⟨record, env₁, -, h⟩ := Action.runOn_bind_eq_ok h
    cases h; exact ⟨rfl, rfl⟩
  · obtain ⟨u, env₁, -, h⟩ := Action.runOn_bind_eq_ok h
    cases h; exact ⟨rfl, rfl⟩

/-! ### Stopping -/

/-- The response to an operation that stops does not depend on what comes after the hook that stops it. -/
theorem runOn_execute_of_stop {start given ctx : HookContext} {env₁ env₂ env' : Env} {earlier later : List Hook}
    {hook : Hook} (hopen : (p.opening op id req).runOn env = (.ok start, env₁))
    (hsplit : p.hooks.filter (·.appliesTo p.entity.name (.before op)) = earlier ++ hook :: later)
    (hkeep : ∀ hook ∈ earlier, hook.KeepsEntity) (hearlier : Passes earlier start env₁ given env₂)
    (hrun : (hook.run given).runOn env₂ = (.ok ctx, env')) (hstop : ctx.stopped = true) :
    (p.execute op id req).runOn env = (.ok (reply op ctx), env') := by
  obtain ⟨hentity, hgoing⟩ := runOn_opening_eq_ok hopen
  rw [execute_eq_stages, Action.runOn_bind, hopen]
  dsimp only
  rw [Action.runOn_bind, runOn_runHooks_of_stop (hentity ▸ hsplit) hkeep hgoing hearlier hrun hstop]
  dsimp only
  rw [if_pos hstop]
  rfl

/-- Another pipeline that looks up the same comes to the same hooks, and is stopped by the same one of them,
whatever stands behind it. -/
theorem runOn_execute_of_stop_congr {q : Pipeline} {start given ctx : HookContext} {env₁ env₂ env' : Env}
    {earlier : List Hook} {hook : Hook} (hopen : (p.opening op id req).runOn env = (.ok start, env₁))
    (hentity : q.entity = p.entity) (hlook : q.connection.findOne = p.connection.findOne)
    (hbegins : earlier ++ [hook] <+: q.hooks.filter (·.appliesTo p.entity.name (.before op)))
    (hhooks : ∀ hook ∈ earlier, hook.LeavesDriver) (hhook : hook.LeavesDriver)
    (hearlier : Passes earlier start env₁ given env₂) (hrun : (hook.run given).runOn env₂ = (.ok ctx, env'))
    (hstop : ctx.stopped = true) : (q.execute op id req).runOn env = (.ok (reply op ctx), env') := by
  have hopen' : (q.opening op id req).runOn env = (.ok { start with connection := q.connection }, env₁) := by
    rw [opening_congr hentity hlook, Action.runOn_bind, hopen]
    rfl
  obtain ⟨later, hsplit⟩ := hbegins
  rw [List.append_assoc, ← hentity] at hsplit
  obtain ⟨c, hearlier'⟩ := hearlier.connection hhooks q.connection
  obtain ⟨c', hrun'⟩ := hhook.runOn_of_ok hrun c
  rw [runOn_execute_of_stop hopen' hsplit.symm (fun hook hmem => (hhooks hook hmem).entity) hearlier' hrun' hstop]
  cases op <;> rfl

/-- An operation that is not stopped runs its hooks, does its work between them, and replies. -/
theorem runOn_execute_of_passes {start ctx done ctx' : HookContext} {env₁ env₂ env₃ env' : Env}
    (hopen : (p.opening op id req).runOn env = (.ok start, env₁))
    (hbefore : (runHooks p.hooks (.before op) start).runOn env₁ = (.ok ctx, env₂)) (hgoing : ctx.stopped = false)
    (hwork : (p.work op req ctx).runOn env₂ = (.ok done, env₃))
    (hafter : (runHooks p.hooks (.after op) done).runOn env₃ = (.ok ctx', env')) :
    (p.execute op id req).runOn env = (.ok (reply op ctx'), env') := by
  rw [execute_eq_stages, Action.runOn_bind, hopen]
  dsimp only
  rw [Action.runOn_bind, hbefore]
  dsimp only
  rw [if_neg (by simp [hgoing]), Action.runOn_bind, hwork]
  dsimp only
  rw [Action.runOn_bind, hafter]
  rfl

/-- Let an operation get as far as its hooks, which leave the driver alone. If one of them stops, then it is the
last thing that happens: the reply follows with what it has left, no table has changed since the look-up, and
neither other hooks after it nor another driver, as long as it looks up the same, make a difference. If none of
those before the operation stops or fails, then exactly those for its entity run, each once and in their order,
and after the work is done so do those after the operation. -/
theorem execute_stopped {start : HookContext} {env₁ : Env} (hhooks : ∀ hook ∈ p.hooks, hook.LeavesDriver)
    (hopen : (p.opening op id req).runOn env = (.ok start, env₁)) :
    let registered (event : HookEvent) (hooks : List Hook) : List Hook :=
      hooks.filter fun h => h.event = event && (h.entity = "*" || h.entity = p.entity.name)
    (∀ earlier hook later given env₂ ctx env₃,
      registered (.before op) p.hooks = earlier ++ hook :: later → Passes earlier start env₁ given env₂ →
      (hook.run given).runOn env₂ = (.ok ctx, env₃) → ctx.stopped = true →
        ∃ response, (p.execute op id req).runOn env = (.ok response, env₃) ∧
          response.status = (match op with | .create => 201 | .delete => 204 | _ => 200) ∧
          response.body = (match op with | .delete => .null | _ => ctx.resource.getD .null) ∧
          env₃.tables = env₁.tables ∧
          (∀ enforceKeys scope, p.connection = InMemory.connect enforceKeys scope → env₃.tables = env.tables) ∧
          ∀ q : Pipeline, q.entity = p.entity → q.connection.findOne = p.connection.findOne →
            earlier ++ [hook] <+: registered (.before op) q.hooks →
              (q.execute op id req).runOn env = (.ok response, env₃)) ∧
    ∀ ctx env₂,
      ((runHooks p.hooks (.before op) start).runOn env₁ = (.ok ctx, env₂) ∧ ctx.stopped = false ↔
        Passes (registered (.before op) p.hooks) start env₁ ctx env₂) ∧
      (Passes (registered (.before op) p.hooks) start env₁ ctx env₂ →
        ∀ done env₃, (p.work op req ctx).runOn env₂ = (.ok done, env₃) → ∀ ctx' env₄,
          ((runHooks p.hooks (.after op) done).runOn env₃ = (.ok ctx', env₄) ∧ ctx'.stopped = false ↔
            Passes (registered (.after op) p.hooks) done env₃ ctx' env₄) ∧
          (Passes (registered (.after op) p.hooks) done env₃ ctx' env₄ →
            (p.execute op id req).runOn env = (.ok (reply op ctx'), env₄))) := by
  intro registered
  obtain ⟨hentity, hgoing⟩ := runOn_opening_eq_ok hopen
  have hregistered (event : HookEvent) : ∀ hook ∈ registered event p.hooks, hook.LeavesDriver :=
    fun hook hmem => hhooks hook (List.mem_filter.1 hmem).1
  have hkeep (event : HookEvent) : ∀ hook ∈ registered event p.hooks, hook.KeepsEntity :=
    fun hook hmem => (hregistered event hook hmem).entity
  refine ⟨fun earlier hook later given env₂ ctx env₃ hsplit hearlier hrun hstop => ?_, fun ctx env₂ => ?_⟩
  · obtain ⟨hfront, hrest⟩ := List.forall_mem_append.1 (hsplit ▸ hregistered (.before op))
    obtain ⟨hhook, -⟩ := List.forall_mem_cons.1 hrest
    have hfrontKeep : ∀ hook ∈ earlier, hook.KeepsEntity := fun hook hmem => (hfront hook hmem).entity
    have htables : env₃.tables = env₁.tables := (hhook.tables_of_runOn hrun).trans (hearlier.tables hfront)
    refine ⟨reply op ctx, runOn_execute_of_stop hopen hsplit hfrontKeep hearlier hrun hstop, ?_, ?_, htables,
      fun enforceKeys scope hconnection => ?_, fun q hq hlook hbegins => ?_⟩
    · cases op <;> rfl
    · cases op <;> rfl
    · have hlook : ∀ f, (p.connection.findOne p.entity f).ReadOnly := fun f =>
        hconnection ▸ InMemory.readOnly_findOne
      rw [htables, ← readOnly_opening hlook env, hopen]
    · exact runOn_execute_of_stop_congr hopen hq hlook hbegins hfront hhook hearlier hrun hstop
  · have hpass : (runHooks p.hooks (.before op) start).runOn env₁ = (.ok ctx, env₂) ∧ ctx.stopped = false ↔
        Passes (registered (.before op) p.hooks) start env₁ ctx env₂ :=
      runHooks_eq_ok_iff hentity (hkeep (.before op)) hgoing
    refine ⟨hpass, fun hbefore done env₃ hwork ctx' env₄ => ?_⟩
    obtain ⟨hrunBefore, hgoing⟩ := hpass.2 hbefore
    obtain ⟨hdone, hgoing'⟩ := runOn_work_eq_ok hwork
    have hentity' : done.entity = p.entity.name := (hdone.trans (hbefore.entity (hkeep _))).trans hentity
    have hpass' : (runHooks p.hooks (.after op) done).runOn env₃ = (.ok ctx', env₄) ∧ ctx'.stopped = false ↔
        Passes (registered (.after op) p.hooks) done env₃ ctx' env₄ :=
      runHooks_eq_ok_iff hentity' (hkeep (.after op)) (hgoing'.trans hgoing)
    exact ⟨hpass', fun hafter => runOn_execute_of_passes hopen hrunBefore hgoing hwork (hpass'.2 hafter).1⟩

/-! ### A creation that is stopped -/

def recording (entity : String) (event : HookEvent) (entry : String) : Hook where
  entity
  event
  run ctx := do
    Action.note (.str entry)
    pure ctx

/-- Answers a creation in place of the driver. -/
def queueing : Hook where
  entity := "note"
  event := .before .create
  run ctx := do
    Action.note (.str "queueing")
    pure (ctx.stopWith (Json.object [("queued", .bool true)]))

def queuedNotes : Pipeline where
  entity := Entity.placeholder "note"
  connection := InMemory.connect false 0
  hooks :=
    [recording "*" (.before .create) "first", recording "user" (.before .create) "other", queueing,
      recording "note" (.before .create) "later", recording "*" (.after .create) "after",
      recording "*" (.before .list) "listing", recording "note" (.after .list) "listed"]

/-- A hook that leaves an entry, and changes nothing of the context by which it is chosen or by which it would
reach the driver, leaves the driver alone. -/
theorem leavesDriver_of_note {h : Hook} {entry : Json} {f : HookContext → HookContext}
    (hrun : ∀ ctx, h.run ctx = Action.note entry >>= fun _ => pure (f ctx))
    (hentity : ∀ ctx, (f ctx).entity = ctx.entity)
    (hblind : ∀ ctx c, f { ctx with connection := c } = { f ctx with connection := c }) : h.LeavesDriver where
  entity ctx env ctx' env' h := by
    rw [hrun] at h
    cases h
    exact hentity ctx
  tables ctx env := by
    rw [hrun]
    funext scope
    cases scope <;> rfl
  blind ctx env c := ⟨c, by rw [hrun, hrun, hblind]; rfl⟩

theorem leavesDriver_queuedNotes : ∀ hook ∈ queuedNotes.hooks, hook.LeavesDriver := by
  have hrecording (entity : String) (event : HookEvent) (entry : String) :
      (recording entity event entry).LeavesDriver :=
    leavesDriver_of_note (f := id) (fun _ => rfl) (fun _ => rfl) (fun _ _ => rfl)
  have hqueueing : queueing.LeavesDriver :=
    leavesDriver_of_note (f := (·.stopWith (Json.object [("queued", .bool true)]))) (fun _ => rfl)
      (fun _ => rfl) (fun _ _ => rfl)
  simp [queuedNotes, hrecording, hqueueing]

/-- A note that is to be created is queued, whatever hooks stand behind the one that queues it. Notes that are
listed go through both of their hooks. -/
theorem execute_stopped_queuedNotes :
    let create := { Request.ofPath "POST" "/notes" with body := .obj [] }
    let failing : Hook := ⟨"*", .before .create, fun _ => throw (.internal "never")⟩
    let other : Pipeline :=
      { queuedNotes with hooks := [recording "*" (.before .create) "first", queueing, failing] }
    let queued : Env := { Env.empty with journal := [.str "first", .str "queueing"] }
    ∃ response, response.status = 201 ∧ response.body = Json.object [("queued", .bool true)] ∧
      (queuedNotes.execute .create none create).runOn Env.empty = (.ok response, queued) ∧
      queued.tables = Env.empty.tables ∧
      (other.execute .create none create).runOn Env.empty = (.ok response, queued) ∧
      ∃ page, (queuedNotes.execute .list none (Request.ofPath "GET" "/notes")).runOn Env.empty =
        (.ok (.ok page), { Env.empty with journal := [.str "listing", .str "listed"] }) := by
  intro create failing other queued
  have hcreate : (queuedNotes.opening .create none create).runOn Env.empty =
      (.ok { queuedNotes.context .create create with input := [] }, Env.empty) := rfl
  obtain ⟨hstops, -⟩ := execute_stopped leavesDriver_queuedNotes hcreate
  obtain ⟨response, hrun, hstatus, hbody, htables, -, hother⟩ :=
    hstops [recording "*" (.before .create) "first"] queueing [recording "note" (.before .create) "later"]
      _ _ _ queued rfl (.cons rfl rfl .nil) rfl rfl
  refine ⟨response, hstatus, hbody, hrun, htables, hother other rfl rfl ⟨[failing], rfl⟩, ?_⟩
  have hlist : (queuedNotes.opening .list none (Request.ofPath "GET" "/notes")).runOn Env.empty =
      (.ok (queuedNotes.context .list (Request.ofPath "GET" "/notes")), Env.empty) := rfl
  obtain ⟨-, hgoes⟩ := execute_stopped leavesDriver_queuedNotes hlist
  obtain ⟨-, hrest⟩ := hgoes _ _
  obtain ⟨-, hreply⟩ := hrest (.cons rfl rfl .nil) _ _ rfl _ _
  exact ⟨_, hreply (.cons rfl rfl .nil)⟩

end EntityRest.Pipeline
