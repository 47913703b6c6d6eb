import EntityRest.Proofs.Driver.InMemory
import EntityRest.Service.Pipeline

/-! # The steps of a pipeline

What looking a record up, checking the rules and calling the driver come to, and what is left of an
operation without hooks: it writes nothing, or it makes one write, of which `Written` says what was seen
before it (`writesOnce_execute`). -/

namespace EntityRest

theorem ListQuery.embed_ofParams {params : OrdMap String String} (h : params.get? "include" = none) :
    (ofParams params).embed = [] := by
  show embedOf params = []
  rw [embedOf, h]
  rfl

namespace Pipeline

variable {p : Pipeline} {env : Env}

theorem runOn_authorize {op : Operation} {req : Request} {resource input : Option Json} :
    (p.authorize op req resource input).runOn env =
      ((Access.check p.entity op ⟨p.entity.name, op, req.user, resource, input⟩).mapError
        Denial.toApiError, env) := rfl

theorem wp_onDriver {α : Type} {act : Action DriverError α} {Q : Except ApiError α → Env → Prop} :
    Action.wp (onDriver act) Q env ↔
      Action.wp act (fun r => Q (r.mapError DriverError.toApiError)) env :=
  Action.wp_mapError

section Connect

open InMemory (connect)

variable {e : Entity} {hooks : List Hook} {enforceKeys : Bool} {scope : Nat} {req : Request}

theorem wp_fetch {f : Filter} {Q : Except ApiError Json → Env → Prop} :
    Action.wp (fetch ⟨e, connect enforceKeys scope, hooks⟩ f) Q env ↔
      match (env.tables scope).find? e f with
      | some record => Q (.ok (.obj record)) env
      | none => Q (.error (.notFound (e.name ++ " not found"))) env := by
  unfold fetch
  rw [InMemory.findOne_connect, Action.wp_bind, wp_onDriver, InMemory.wp_reading]
  cases (env.tables scope).find? e f <;> rfl

section Fetch

variable {p : Pipeline} (hconnection : p.connection = connect enforceKeys scope)
include hconnection

theorem runOn_fetch (f : Filter) (env : Env) :
    (p.fetch f).runOn env =
      (((env.tables scope).find? p.entity f).elim (.error p.recordNotFound) fun row => .ok (.obj row), env) := by
  have hwp : Action.wp (p.fetch f) (fun r env' => (r, env') =
      (((env.tables scope).find? p.entity f).elim (.error p.recordNotFound) fun row => .ok (.obj row), env)) env := by
    unfold fetch
    rw [hconnection, InMemory.findOne_connect, Action.wp_bind, wp_onDriver, InMemory.wp_reading]
    cases (env.tables scope).find? p.entity f <;> rfl
  exact hwp

theorem runOn_fetchWith {f : Filter} {env : Env} {row : Fields}
    (hrow : (env.tables scope).find? p.entity f = some row) (names : List String) :
    (p.fetchWith f names).runOn env = (.ok (.obj ((env.tables scope).embed p.entity names row)), env) := by
  have hwp : Action.wp (p.fetchWith f names) (fun r env' => (r, env') =
      (.ok (.obj ((env.tables scope).embed p.entity names row)), env)) env := by
    unfold fetchWith
    have hcall : (connect enforceKeys scope).findOneWith p.entity f names =
        InMemory.reading scope fun s => (s.find? p.entity f).map fun row => .obj (s.embed p.entity names row) := rfl
    rw [hconnection, hcall, Action.wp_bind, wp_onDriver, InMemory.wp_reading, hrow]
    rfl
  exact hwp

end Fetch

/-- A write, and after it what only reads. -/
theorem wp_onDriver_writing {α : Type} {f : Stamp → Store → Except DriverError (α × Store)}
    {g : α → Action ApiError Response} {P : Store → Prop} (hkeep : P (env.tables scope))
    (hwrite : ∀ stamp a s, f stamp (env.tables scope) = .ok (a, s) → P s) (hg : ∀ a, (g a).ReadOnly) :
    Action.wp (onDriver (InMemory.writing scope f) >>= g) (fun _ env' => P (env'.tables scope)) env :=
  Action.wp_bind_of_readOnly
    (wp_onDriver.2 (InMemory.wp_writing_of (P := fun _ => P) (fun _ => hkeep) hwrite)) hg

theorem readOnly_authorize {op : Operation} {resource input : Option Json} :
    (p.authorize op req resource input).ReadOnly := Action.readOnly_ofExcept _

theorem readOnly_fetch {f : Filter} : (fetch ⟨e, connect enforceKeys scope, hooks⟩ f).ReadOnly := by
  unfold fetch
  refine Action.ReadOnly.bind (InMemory.readOnly_findOne.mapError _) fun record => ?_
  cases record with
  | none => exact Action.readOnly_throw _
  | some record => exact Action.readOnly_pure _

theorem readOnly_fetchWith {f : Filter} {names : List String} :
    (fetchWith ⟨e, connect enforceKeys scope, hooks⟩ f names).ReadOnly := by
  unfold fetchWith
  refine Action.ReadOnly.bind (InMemory.readOnly_findOneWith.mapError _) fun record => ?_
  cases record with
  | none => exact Action.readOnly_throw _
  | some record => exact Action.readOnly_pure _

/-- Without hooks, listing changes nothing. -/
theorem readOnly_list : (list ⟨e, connect enforceKeys scope, []⟩ req).ReadOnly := by
  unfold list
  refine readOnly_authorize.bind fun _ => Action.ReadOnly.bind (Action.readOnly_pure _) fun ctx => ?_
  split
  · exact Action.readOnly_pure _
  · refine Action.ReadOnly.bind (InMemory.readOnly_findMany.mapError _) fun data => ?_
    refine Action.ReadOnly.bind (InMemory.readOnly_count.mapError _) fun total => ?_
    exact Action.ReadOnly.bind (Action.readOnly_pure _) fun ctx => Action.readOnly_pure _

/-- Without hooks, reading changes nothing. -/
theorem readOnly_read {id : String} : (read ⟨e, connect enforceKeys scope, []⟩ id req).ReadOnly := by
  have hend : ∀ ctx : HookContext, (do
      let ctx ← runHooks [] (.after .read) ctx
      pure (.ok (answer ctx)) : Action ApiError Response).ReadOnly := fun ctx =>
    Action.ReadOnly.bind (Action.readOnly_pure _) fun ctx => Action.readOnly_pure _
  unfold read
  refine Action.ReadOnly.bind (Action.readOnly_pure _) fun ctx => ?_
  split
  · exact Action.readOnly_pure _
  · refine readOnly_fetch.bind fun record => readOnly_authorize.bind fun _ => ?_
    dsimp only
    split
    · exact Action.ReadOnly.bind (Action.readOnly_pure _) fun _ => hend _
    · exact readOnly_fetchWith.bind fun _ => hend _

/-! ### Writes -/

/-- The write of an operation without hooks: its data are valid, its rules hold, and the record that it
changes or removes was looked up with the filter that selects it. -/
inductive Written (p : Pipeline) (enforceKeys : Bool) (req : Request) (s : Store) : Store → Prop
  | create {data row : Fields} {stamp : Stamp} {s' : Store}
      (hdata : (Validation.input p.entity .create req.body).toExcept = .ok data)
      (hcheck : Access.check p.entity .create
        ⟨p.entity.name, .create, req.user, none, some (.obj data)⟩ = .ok ())
      (h : s.create enforceKeys p.entity stamp (p.withOwner req.user data) = .ok (row, s')) :
      Written p enforceKeys req s s'
  | update {f : Filter} {old data row : Fields} {stamp : Stamp} {s' : Store}
      (hfind : s.find? p.entity f = some old)
      (hdata : (Validation.input p.entity .update req.body).toExcept = .ok data)
      (hcheck : Access.check p.entity .update
        ⟨p.entity.name, .update, req.user, some (.obj old), some (.obj data)⟩ = .ok ())
      (h : s.update enforceKeys p.entity stamp f data = .ok (row, s')) : Written p enforceKeys req s s'
  | delete {f : Filter} {old : Fields} {s' : Store} (hfind : s.find? p.entity f = some old)
      (hcheck : Access.check p.entity .delete
        ⟨p.entity.name, .delete, req.user, some (.obj old), none⟩ = .ok ())
      (h : s.delete p.entity f = .ok s') : Written p enforceKeys req s s'

/-- The tables that `act` leaves behind are the old ones, or what one write made of them. -/
def WritesOnce (p : Pipeline) (enforceKeys : Bool) (scope : Nat) (req : Request) (env : Env)
    (act : Action ApiError Response) : Prop :=
  Action.wp act (fun _ env' => env'.tables scope = env.tables scope ∨
    p.Written enforceKeys req (env.tables scope) (env'.tables scope)) env

namespace WritesOnce

theorem of_readOnly {act : Action ApiError Response} (h : act.ReadOnly) :
    WritesOnce p enforceKeys scope req env act := by
  unfold WritesOnce Action.wp
  rw [h env]; exact .inl rfl

theorem of_writing {α : Type} {f : Stamp → Store → Except DriverError (α × Store)}
    {k : α → Action ApiError Response} (hk : ∀ a, (k a).ReadOnly)
    (h : ∀ stamp a s, f stamp (env.tables scope) = .ok (a, s) →
      p.Written enforceKeys req (env.tables scope) s) :
    WritesOnce p enforceKeys scope req env (onDriver (InMemory.writing scope f) >>= k) :=
  wp_onDriver_writing (P := fun s => s = env.tables scope ∨ p.Written enforceKeys req (env.tables scope) s)
    (.inl rfl) (fun stamp a s hs => .inr (h stamp a s hs)) hk

/-- A step that can fail and changes nothing; what follows knows that it succeeded. -/
theorem bind_ofExcept {α : Type} {r : Except ApiError α} {k : α → Action ApiError Response}
    (h : ∀ a, r = .ok a → WritesOnce p enforceKeys scope req env (k a)) :
    WritesOnce p enforceKeys scope req env (Action.ofExcept r >>= k) := by
  unfold WritesOnce
  rw [Action.wp_bind, Action.wp_ofExcept]
  cases r with
  | error => exact .inl rfl
  | ok a => exact h a rfl

theorem bind_authorize {op : Operation} {resource input : Option Json} {k : Unit → Action ApiError Response}
    (h : Access.check p.entity op ⟨p.entity.name, op, req.user, resource, input⟩ = .ok () →
      WritesOnce p enforceKeys scope req env (k ())) :
    WritesOnce p enforceKeys scope req env (p.authorize op req resource input >>= k) := by
  refine bind_ofExcept fun _ hok => h ?_
  cases hcheck : Access.check p.entity op ⟨p.entity.name, op, req.user, resource, input⟩ with
  | error => rw [hcheck] at hok; cases hok
  | ok => rfl

theorem bind_fetch {f : Filter} {k : Json → Action ApiError Response}
    (h : ∀ old, (env.tables scope).find? e f = some old →
      WritesOnce ⟨e, connect enforceKeys scope, hooks⟩ enforceKeys scope req env (k (.obj old))) :
    WritesOnce ⟨e, connect enforceKeys scope, hooks⟩ enforceKeys scope req env
      (fetch ⟨e, connect enforceKeys scope, hooks⟩ f >>= k) := by
  unfold WritesOnce
  rw [Action.wp_bind, wp_fetch]
  cases hfind : (env.tables scope).find? e f with
  | none => exact .inl rfl
  | some old => exact h old hfind

end WritesOnce

theorem writesOnce_create : WritesOnce ⟨e, connect enforceKeys scope, []⟩ enforceKeys scope req env
    (create ⟨e, connect enforceKeys scope, []⟩ req) := by
  refine WritesOnce.bind_ofExcept fun data hdata => WritesOnce.bind_authorize fun hcheck => ?_
  simp only [runHooks, pure_bind]
  rw [InMemory.create_connect]
  refine WritesOnce.of_writing (fun _ => Action.readOnly_pure _) fun stamp a s hs => ?_
  obtain ⟨⟨row, s'⟩, hcreate, heq⟩ := exists_of_map_eq_ok hs
  cases heq
  exact .create hdata hcheck hcreate

theorem writesOnce_update {id : String} :
    WritesOnce ⟨e, connect enforceKeys scope, []⟩ enforceKeys scope req env
      (update ⟨e, connect enforceKeys scope, []⟩ id req) := by
  refine WritesOnce.bind_fetch fun old hfind => WritesOnce.bind_ofExcept fun data hdata =>
    WritesOnce.bind_authorize fun hcheck => ?_
  simp only [runHooks, pure_bind]
  rw [InMemory.update_connect]
  refine WritesOnce.of_writing (fun _ => Action.readOnly_pure _) fun stamp a s hs => ?_
  obtain ⟨⟨row, s'⟩, hupdate, heq⟩ := exists_of_map_eq_ok hs
  cases heq
  exact .update hfind hdata hcheck hupdate

theorem writesOnce_delete {id : String} :
    WritesOnce ⟨e, connect enforceKeys scope, []⟩ enforceKeys scope req env
      (delete ⟨e, connect enforceKeys scope, []⟩ id req) := by
  refine WritesOnce.bind_fetch fun old hfind => WritesOnce.bind_authorize fun hcheck => ?_
  simp only [runHooks, pure_bind]
  rw [InMemory.delete_connect]
  refine WritesOnce.of_writing (fun _ => Action.readOnly_pure _) fun stamp a s hs => ?_
  obtain ⟨s', hdelete, heq⟩ := exists_of_map_eq_ok hs
  cases heq
  exact .delete hfind hcheck hdelete

theorem writesOnce_execute (op : Operation) (id : Option String) :
    WritesOnce ⟨e, connect enforceKeys scope, []⟩ enforceKeys scope req env
      (execute ⟨e, connect enforceKeys scope, []⟩ op id req) := by
  cases op with
  | list => exact .of_readOnly readOnly_list
  | create => exact writesOnce_create
  | read =>
    cases id with
    | none => exact .of_readOnly (Action.readOnly_throw _)
    | some id => exact .of_readOnly readOnly_read
  | update =>
    cases id with
    | none => exact .of_readOnly (Action.readOnly_throw _)
    | some id => exact writesOnce_update
  | delete =>
    cases id with
    | none => exact .of_readOnly (Action.readOnly_throw _)
    | some id => exact writesOnce_delete

end Connect

end Pipeline

/-! ### Runs -/

/-- A request for an operation. -/
structure Call where
  op : Operation
  id : Option String
  request : Request

/-- The environment after one call after the other, whether they fail or not. -/
def Pipeline.run (p : Pipeline) (env : Env) (calls : List Call) : Env :=
  calls.foldl (fun env c => ((p.execute c.op c.id c.request).runOn env).2) env

/-- What every write of a pipeline without hooks keeps, holds after all calls. -/
theorem Pipeline.run_keeps {e : Entity} {enforceKeys : Bool} {scope : Nat} {env : Env} {P : Store → Prop}
    (hP : ∀ req s s', Written ⟨e, InMemory.connect enforceKeys scope, []⟩ enforceKeys req s s' → P s → P s')
    (calls : List Call) (h : P (env.tables scope)) :
    P ((run ⟨e, InMemory.connect enforceKeys scope, []⟩ env calls).tables scope) := by
  induction calls generalizing env with
  | nil => exact h
  | cons c calls ih =>
    refine ih ?_
    have hstep : WritesOnce ⟨e, InMemory.connect enforceKeys scope, []⟩ enforceKeys scope c.request env _ :=
      writesOnce_execute c.op c.id
    rcases hstep with hsame | hwritten
    · rw [hsame]; exact h
    · exact hP _ _ _ hwritten h

end EntityRest
