import EntityRest.Proofs.Driver.InMemory
import EntityRest.Proofs.Service.SecurityHeaders

/-! # Requests that reach their operation

Middleware that hands a request on as it is, and writes no record (`Middleware.PassesOn`), leaves the request to
the router, however much of it there is (`App.received_of_passesOn`). The default middleware is of this kind but
for requests that only ask what is allowed (`Middleware.passesOn_of_mem_defaults`). -/

namespace EntityRest

/-- The shared tables are the same, and so is the next stamp. -/
structure Env.SameRecords (env env' : Env) : Prop where
  live : env'.live = env.live
  issued : env'.issued = env.issued

theorem Env.SameRecords.refl (env : Env) : env.SameRecords env := ⟨rfl, rfl⟩

theorem Env.SameRecords.trans {env env' env'' : Env} (h : env.SameRecords env') (h' : env'.SameRecords env'') :
    env.SameRecords env'' :=
  ⟨h'.live.trans h.live, h'.issued.trans h.issued⟩

theorem Env.SameRecords.tables {env env' : Env} (h : env.SameRecords env') : env'.tables 0 = env.live := h.live

theorem Env.SameRecords.nextStamp {env env' : Env} (h : env.SameRecords env') :
    InMemory.nextStamp env' = InMemory.nextStamp env := by
  rw [InMemory.nextStamp, h.issued]
  rfl

namespace Middleware

/-- Hands every request on as it is, unless it only asks what is allowed. -/
def PassesOn (m : Middleware) : Prop :=
  ∀ x env, x.request.method ≠ "OPTIONS" →
    ∃ staged env', (m.run x).run env = ((.ok .next, ⟨x.request, staged⟩), env') ∧ env.SameRecords env'

theorem passesOn_pureStep {name : String} {f : Exchange → Flow × Exchange}
    (h : ∀ x, x.request.method ≠ "OPTIONS" → (f x).1 = .next ∧ (f x).2.request = x.request) :
    (pureStep name f).PassesOn := by
  intro x env hmethod
  obtain ⟨hnext, hrequest⟩ := h x hmethod
  refine ⟨(f x).2.staged, env, ?_, .refl env⟩
  rw [run_pureStep, hnext, ← hrequest]

theorem passesOn_cors (c : CorsConfig) : (cors c).PassesOn := by
  refine passesOn_pureStep fun x hmethod => ?_
  have hrequest := request_stageCors c x
  dsimp only
  rw [hrequest, if_neg hmethod]
  exact ⟨rfl, hrequest⟩

theorem request_foldl_stageHeader (l : List (String × String)) (x : Exchange) :
    (l.foldl (fun x (name, value) => stageHeader x name value) x).request = x.request := by
  induction l generalizing x with
  | nil => rfl
  | cons e l ih => exact ih _

theorem passesOn_securityHeaders : securityHeaders.PassesOn :=
  passesOn_pureStep fun x _ => ⟨rfl, request_foldl_stageHeader securityHeaderList x⟩

theorem passesOn_of_mem_defaults {c : Config} : ∀ m ∈ defaults c, m.PassesOn := by
  refine List.forall_mem_append.2 ⟨?_, ?_⟩
  · split
    · exact List.forall_mem_singleton.2 (passesOn_cors _)
    · exact fun m hm => nomatch hm
  · split
    · exact List.forall_mem_singleton.2 passesOn_securityHeaders
    · exact fun m hm => nomatch hm

end Middleware

/-- What a plugin does when it is told of a request leaves the records alone. -/
def Plugin.KeepsRecords (p : Plugin) : Prop :=
  ∀ f, p.lifecycle.onRequest = some f → ∀ req (env : Env), env.SameRecords ((f req).run env).2

namespace App

variable {app : App} {req : Request}

theorem sameRecords_observeRequest {plugins : List Plugin} (h : ∀ p ∈ plugins, p.KeepsRecords) (req : Request)
    (env : Env) : env.SameRecords ((observeRequest req plugins).run env).2 := by
  induction plugins generalizing env with
  | nil => exact .refl env
  | cons p plugins ih =>
    obtain ⟨hp, hplugins⟩ := List.forall_mem_cons.1 h
    rw [observeRequest, run_bind]
    refine .trans ?_ (ih hplugins _)
    cases hf : p.lifecycle.onRequest with
    | none => exact .refl env
    | some f => exact hp f hf req env

theorem runMiddleware_of_passesOn {ms : List Middleware} (h : ∀ m ∈ ms, m.PassesOn)
    (hmethod : req.method ≠ "OPTIONS") (staged : Response) (env : Env) :
    ∃ staged' env', (runMiddleware ms ⟨req, staged⟩).run env = ((.ok .next, ⟨req, staged'⟩), env') ∧
      env.SameRecords env' := by
  induction ms generalizing staged env with
  | nil => exact ⟨staged, env, rfl, .refl env⟩
  | cons m ms ih =>
    obtain ⟨hm, hms⟩ := List.forall_mem_cons.1 h
    obtain ⟨staged₁, env₁, hrun, hsame⟩ := hm ⟨req, staged⟩ env hmethod
    obtain ⟨staged₂, env₂, hrest, hsame'⟩ := ih hms staged₁ env₁
    refine ⟨staged₂, env₂, ?_, hsame.trans hsame'⟩
    rw [run_runMiddleware_cons, hrun]
    exact hrest

/-- A request that only middleware of this kind sees gets to the router as it is. -/
theorem received_of_passesOn (hplugins : ∀ p ∈ app.plugins, p.KeepsRecords)
    (hmiddleware : ∀ m ∈ app.middleware, m.PassesOn) (hmethod : req.method ≠ "OPTIONS") (env : Env) :
    ∃ staged env', app.received req env = ((.ok .next, ⟨req, staged⟩), env') ∧ env.SameRecords env' := by
  obtain ⟨staged, env', hrun, hsame⟩ := runMiddleware_of_passesOn hmiddleware hmethod (.ok .null)
    ((observeRequest req app.plugins).run env).2
  exact ⟨staged, env', hrun, (sameRecords_observeRequest hplugins req env).trans hsame⟩

end App

end EntityRest
