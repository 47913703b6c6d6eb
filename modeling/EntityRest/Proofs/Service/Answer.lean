import EntityRest.Proofs.Effect.Action
import EntityRest.Proofs.Http.Headers
import EntityRest.Service.App

/-! # How a request is answered

An application answers on four ways: middleware ends the request, middleware fails, the request is served, or
serving it fails. `run_handleWith` says what the answer is on each of them, by what middleware has made of the
request (`received`). Whatever the way is, the headers that are staged then are in the answer, and only a
handler's own values come before theirs (`handle_staged`). -/

namespace EntityRest.App

variable (app : App) (req : Request) (env : Env)

theorem run_bind {α β : Type} (act : StateM Env α) (f : α → StateM Env β) (env : Env) :
    (act >>= f).run env = (f (act.run env).1).run (act.run env).2 := rfl

/-- Middleware goes on behind one that lets the request go on. -/
theorem run_runMiddleware_cons (m : Middleware) (ms : List Middleware) (x : Exchange) (env : Env) :
    (runMiddleware (m :: ms) x).run env =
      match (m.run x).run env with
      | ((.ok .next, x'), env') => (runMiddleware ms x').run env'
      | ended => ended := by
  rw [runMiddleware, run_bind]
  rcases (m.run x).run env with ⟨⟨e | flow, x'⟩, env'⟩
  · rfl
  · cases flow <;> rfl

/-- What middleware makes of a request: how it has ended and the exchange as it is then. -/
def received : (Except ApiError Flow × Exchange) × Env :=
  (runMiddleware app.middleware ⟨req, .ok .null⟩).run ((observeRequest req app.plugins).run env).2

/-- The response to a request. -/
def answer : Response := ((app.handle req).run env).1

/-- The response to a request that has failed, with what is staged then. -/
def failure (e : ApiError) (staged : Headers) : Response :=
  withStaged (.ofError app.isProduction e) staged

theorem run_handleWith (serve : Request → Action ApiError Response) :
    ((app.handleWith serve req).run env).1 =
      match app.received req env with
      | ((.ok .stop, x), _) => x.staged
      | ((.error e, x), _) => app.failure e x.staged.headers
      | ((.ok .next, x), env') =>
        match ((serve x.request).runOn env').1 with
        | .ok res => withStaged res x.staged.headers
        | .error e => app.failure e x.staged.headers := by
  unfold received handleWith
  rw [run_bind, run_bind]
  rcases (runMiddleware app.middleware ⟨req, .ok .null⟩).run _ with ⟨⟨e | flow, x⟩, env'⟩
  · rfl
  · cases flow with
    | stop => rfl
    | next =>
      dsimp only
      have hrun : StateT.run (serve x.request).run env' = (serve x.request).runOn env' := rfl
      rw [run_bind, hrun]
      rcases (serve x.request).runOn env' with ⟨_ | _, _⟩ <;> rfl

/-- The headers that a handler sets itself; a request that is not served has none. -/
def ownHeaders : Headers :=
  let x := (app.received req env).1.2
  match (app.received req env).1.1, ((app.dispatch x.request).runOn (app.received req env).2).1 with
  | .ok .next, .ok res => res.headers
  | _, _ => ∅

theorem get?_answer (name : String) :
    (app.answer req env).headers.get? name =
      ((app.ownHeaders req env).get? name).or ((app.received req env).1.2.staged.headers.get? name) := by
  have hfailure : ∀ e (staged : Headers), (app.failure e staged).headers.get? name =
      ((∅ : Headers).get? name).or (staged.get? name) :=
    fun e staged => Headers.get?_merge ∅ staged name
  rw [answer, handle, run_handleWith, ownHeaders]
  rcases app.received req env with ⟨⟨e | flow, x⟩, env'⟩
  · exact hfailure e x.staged.headers
  · cases flow with
    | stop => rfl
    | next =>
      dsimp only
      cases ((app.dispatch x.request).runOn env').1 with
      | ok res => exact Headers.get?_merge res.headers x.staged.headers name
      | error e => exact hfailure e x.staged.headers

theorem contains_answer {name : String}
    (h : (app.received req env).1.2.staged.headers.contains name = true) :
    (app.answer req env).headers.contains name = true := by
  rw [OrdMap.contains, get?_answer, Option.isSome_or, Bool.or_eq_true]
  exact .inr h

/-- A merge keeps what the target has and adds the other names that are staged, with all their values; there is
nothing else in it. So every header that is staged when middleware is done is in the response, whether
middleware ends the request or fails, or serving it fails or succeeds, and only the values of a handler that
served it come before those that are staged. -/
theorem handle_staged :
    (∀ (target staged : Headers) (name : String),
      (target.merge staged).get? name = (target.get? name).or (staged.get? name)) ∧
    ∀ (app : App) (req : Request) (env : Env),
      let received := (runMiddleware app.middleware ⟨req, .ok .null⟩).run
        ((observeRequest req app.plugins).run env).2
      let staged := received.1.2.staged.headers
      let own : Headers :=
        match received.1.1, ((app.dispatch received.1.2.request).runOn received.2).1 with
        | .ok .next, .ok res => res.headers
        | _, _ => ∅
      let response := ((app.handle req).run env).1
      (∀ name, staged.contains name = true → response.headers.contains name = true) ∧
        ∀ name, response.headers.get? name = (own.get? name).or (staged.get? name) :=
  ⟨Headers.get?_merge, fun app req env =>
    ⟨fun _ => app.contains_answer req env, app.get?_answer req env⟩⟩

end EntityRest.App
