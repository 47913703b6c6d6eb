import EntityRest.Proofs.Access.Check
import EntityRest.Proofs.Service.Pipeline

/-! # Rules come before hooks and writes

Every operation but read comes down to three parts, one after the other: finding out what the rules are
asked about, asking them, and all the rest (`execute_eq`). The first part is made of one look-up of the
driver and of validation only, the second has no effect, and the hooks and all other calls of the
driver are in the third. So if a rule does not hold, nothing has happened but the look-up
(`execute_gated`). -/

namespace EntityRest

/-- What the rules of an operation are asked about. -/
inductive Subject where
  | list
  | create (data : Fields)
  | update (id : String) (existing : Json) (data : Fields)
  | delete (id : String) (existing : Json)

namespace Subject

/-- The stored record that is written to. -/
def resource : Subject → Option Json
  | update _ existing _ => some existing
  | delete _ existing => some existing
  | _ => none

/-- The validated body. -/
def input : Subject → Option Json
  | create data => some (.obj data)
  | update _ _ data => some (.obj data)
  | _ => none

/-- What the rules of an operation see. -/
def context (s : Subject) (e : Entity) (op : Operation) (req : Request) : RuleContext :=
  { entity := e.name, operation := op, user := req.user, resource := s.resource, input := s.input }

/-- The record that `look` finds. -/
def existing (e : Entity) (look : Filter → Action DriverError (Option Json)) (id : String) :
    Action ApiError Json := do
  match ← Pipeline.onDriver (look (Filter.ofId id)) with
  | some record => pure record
  | none => throw (.notFound (e.name ++ " not found"))

def validated (e : Entity) (op : Operation) (req : Request) : Action ApiError Fields :=
  Action.ofExcept (Validation.input e op req.body).toExcept

/-- Finds out what the rules of an operation are asked about, by means of `look` alone. -/
def find (e : Entity) (look : Filter → Action DriverError (Option Json)) (op : Operation)
    (id : Option String) (req : Request) : Action ApiError Subject :=
  match op, id with
  | .list, _ => pure .list
  | .create, _ => do pure (.create (← validated e .create req))
  | .update, some id => do
    let record ← existing e look id
    pure (.update id record (← validated e .update req))
  | .delete, some id => do pure (.delete id (← existing e look id))
  | _, _ => throw .routeNotFound

end Subject

namespace Pipeline

/-- What an operation does once its rules have let it pass. -/
def proceed (p : Pipeline) (req : Request) : Subject → Action ApiError Response
  | .list => do
    let ctx ← runHooks p.hooks (.before .list) (p.context .list req)
    if ctx.stopped then pure (.ok (answer ctx))
    else
      let q := ListQuery.ofParams req.query
      let search := searchOf q ctx.filter
      let data ← onDriver (p.connection.findMany p.entity search)
      let total ← onDriver (p.connection.count p.entity (some search.filter))
      let ctx ← runHooks p.hooks (.after .list)
        { ctx with filter := search.filter, resource := some (page data total q) }
      pure (.ok (answer ctx))
  | .create data => do
    let ctx ← runHooks p.hooks (.before .create)
      { p.context .create req with input := p.withOwner req.user data }
    if ctx.stopped then pure (.created (answer ctx))
    else
      let record ← onDriver (p.connection.create p.entity ctx.input)
      let ctx ← runHooks p.hooks (.after .create) { ctx with resource := some record }
      pure (.created (answer ctx))
  | .update id existing data => do
    let ctx ← runHooks p.hooks (.before .update)
      { p.context .update req with
        input := data, resource := some existing, filter := Filter.ofId id }
    if ctx.stopped then pure (.ok (answer ctx))
    else
      let record ← onDriver (p.connection.update p.entity ctx.filter ctx.input)
      let ctx ← runHooks p.hooks (.after .update) { ctx with resource := some record }
      pure (.ok (answer ctx))
  | .delete id existing => do
    let ctx ← runHooks p.hooks (.before .delete)
      { p.context .delete req with resource := some existing, filter := Filter.ofId id }
    if ctx.stopped then pure .noContent
    else
      onDriver (p.connection.delete p.entity ctx.filter)
      let _ ← runHooks p.hooks (.after .delete) ctx
      pure .noContent

variable {p : Pipeline} {op : Operation} {id : Option String} {req : Request} {env : Env}

/-- What the rules of an operation are asked about, by the look-up of the driver. -/
abbrev subject (p : Pipeline) (op : Operation) (id : Option String) (req : Request) :
    Action ApiError Subject :=
  Subject.find p.entity (p.connection.findOne p.entity) op id req

theorem execute_eq (hop : op ≠ .read) : p.execute op id req = (do
    let s ← p.subject op id req
    p.authorize op req s.resource s.input
    p.proceed req s) := by
  cases op with
  | list => rfl
  | create =>
    unfold execute create subject Subject.find
    simp only [bind_assoc, pure_bind]
    rfl
  | read => exact absurd rfl hop
  | update =>
    cases id with
    | none => rfl
    | some id =>
      unfold execute update subject Subject.find
      simp only [bind_assoc, pure_bind]
      rfl
  | delete =>
    cases id with
    | none => rfl
    | some id =>
      unfold execute delete subject Subject.find
      simp only [bind_assoc, pure_bind]
      rfl

section

variable {env' : Env}

theorem runOn_execute_of_not_found {err : ApiError} (hop : op ≠ .read)
    (h : (p.subject op id req).runOn env = (.error err, env')) :
    (p.execute op id req).runOn env = (.error err, env') := by
  rw [execute_eq hop, Action.runOn_bind, h]

theorem runOn_execute_of_found {s : Subject} (hop : op ≠ .read)
    (h : (p.subject op id req).runOn env = (.ok s, env')) :
    (p.execute op id req).runOn env =
      match Access.check p.entity op (s.context p.entity op req) with
      | .error denial => (.error denial.toApiError, env')
      | .ok () => (p.proceed req s).runOn env' := by
  have hcheck : Access.check p.entity op ⟨p.entity.name, op, req.user, s.resource, s.input⟩ =
      Access.check p.entity op (s.context p.entity op req) := rfl
  rw [execute_eq hop, Action.runOn_bind, h]
  dsimp only
  rw [Action.runOn_bind, runOn_authorize, hcheck]
  cases Access.check p.entity op (s.context p.entity op req) <;> rfl

end

end Pipeline

/-- Finding out what the rules are asked about changes nothing if looking up does not. -/
theorem Subject.readOnly_find {e : Entity} {look : Filter → Action DriverError (Option Json)}
    (hlook : ∀ f, (look f).ReadOnly) (op : Operation) (id : Option String) (req : Request) :
    (Subject.find e look op id req).ReadOnly := by
  have hexisting : ∀ id, (existing e look id).ReadOnly := fun id =>
    ((hlook _).mapError _).bind fun record => by
      cases record with
      | none => exact Action.readOnly_throw _
      | some record => exact Action.readOnly_pure _
  have hvalidated : ∀ op, (validated e op req).ReadOnly := fun op => Action.readOnly_ofExcept _
  cases op with
  | list => exact Action.readOnly_pure _
  | create => exact (hvalidated _).bind fun _ => Action.readOnly_pure _
  | read => cases id <;> exact Action.readOnly_throw _
  | update =>
    cases id with
    | none => exact Action.readOnly_throw _
    | some id =>
      exact (hexisting id).bind fun _ => (hvalidated _).bind fun _ => Action.readOnly_pure _
  | delete =>
    cases id with
    | none => exact Action.readOnly_throw _
    | some id => exact (hexisting id).bind fun _ => Action.readOnly_pure _

/-- Hooks and writes come after the rules, and only if all of them hold. Otherwise the first that does
not hold denies: the operation has made its look-up and nothing else, whatever the hooks are and whatever
else the driver could do. -/
theorem Pipeline.execute_gated {op : Operation} (hop : op ≠ .read) (p : Pipeline)
    (id : Option String) (req : Request) (env : Env) :
    let found := (Subject.find p.entity (p.connection.findOne p.entity) op id req).runOn env
    let run := (p.execute op id req).runOn env
    let asked (s : Subject) : RuleContext := s.context p.entity op req
    (∀ err, found.1 = .error err → run = (.error err, found.2)) ∧
      (∀ s, found.1 = .ok s → Access.Allows p.entity op (asked s) →
        run = (p.proceed req s).runOn found.2) ∧
      (∀ s, found.1 = .ok s → ¬Access.Allows p.entity op (asked s) →
        ∃ err, Access.Denies p.entity op (asked s) err ∧ run = (.error err, found.2) ∧
          ∀ p' : Pipeline, p'.entity = p.entity → p'.connection.findOne = p.connection.findOne →
            (p'.execute op id req).runOn env = run) ∧
      (p.entity.rulesFor op = none → ∀ s, found.1 = .ok s →
        run = (p.proceed req s).runOn found.2) ∧
      (∀ enforceKeys scope, p.connection = InMemory.connect enforceKeys scope → found.2 = env) := by
  intro found run asked
  have hrun : ∀ s, found.1 = .ok s → run =
      match Access.check p.entity op (asked s) with
      | .error denial => (.error denial.toApiError, found.2)
      | .ok () => (p.proceed req s).runOn found.2 :=
    fun s hfound => runOn_execute_of_found hop (Prod.ext hfound rfl)
  have hpass : ∀ s, found.1 = .ok s → Access.Allows p.entity op (asked s) →
      run = (p.proceed req s).runOn found.2 := by
    intro s hfound hallows
    rw [hrun s hfound, Access.check_eq_ok_iff.2 hallows]
  refine ⟨fun err hfound => ?_, hpass, fun s hfound hdeny => ?_, fun hnone s hfound => ?_,
    fun enforceKeys scope hconnection => ?_⟩
  · exact runOn_execute_of_not_found hop (Prod.ext hfound rfl)
  · cases hcheck : Access.check p.entity op (asked s) with
    | ok u => exact absurd (Access.check_eq_ok_iff.1 hcheck) hdeny
    | error d =>
      have hdenied : run = (.error d.toApiError, found.2) := by rw [hrun s hfound, hcheck]
      refine ⟨d.toApiError, Access.denies_of_check hcheck, hdenied, fun p' hentity hlook => ?_⟩
      have hfound' : (p'.subject op id req).runOn env = (.ok s, found.2) := by
        unfold subject
        rw [hentity, hlook]; exact Prod.ext hfound rfl
      rw [hdenied, runOn_execute_of_found hop hfound', hentity, hcheck]
  · exact hpass s hfound fun rules hrules => absurd hrules (by simp [hnone])
  · refine Subject.readOnly_find (fun f => ?_) op id req env
    rw [hconnection]
    exact InMemory.readOnly_findOne

/-- Notes that cannot be changed, whoever asks. -/
def lockedNote : Entity where
  name := "note"
  fields := OrdMap.ofList [("text", FieldDef.ofType .string)]
  rules := OrdMap.ofList [(.update, [.authenticated, .custom fun _ => .error "Locked"])]
  ownerField := none
  timestamps := false
  plugin := none

/-- Locked notes, with a hook that leaves an entry in the journal. -/
def lockedNotes : Pipeline where
  entity := lockedNote
  connection := InMemory.connect false 0
  hooks := [⟨Hook.anyEntity, .before .update, fun ctx => do
    Action.note (.str "about to change a note")
    pure ctx⟩]

def storedNote : Fields := .ofList [("id", .str "1"), ("text", .str "a")]

def oneNote : Env := { Env.empty with live := OrdMap.ofList [("note", [storedNote])] }

def newText : Fields := .ofList [("text", .str "b")]

/-- A signed-in user asks for the new text. -/
def retext : Request :=
  { Request.ofPath "PATCH" "/notes/1" with body := .obj newText, user := some (.ofId "alice") }

theorem Pipeline.execute_gated_lockedNotes :
    let run := (lockedNotes.execute .update (some "1") retext).runOn oneNote
    let asked := (Subject.update "1" (.obj storedNote) newText).context lockedNote .update retext
    run = (.error (.forbidden "Locked"), oneNote) ∧
      ∃ err, Access.Denies lockedNote .update asked err ∧ run = (.error err, oneNote) := by
  have hlocked : ∀ s : Subject,
      ¬Access.Allows lockedNote .update (s.context lockedNote .update retext) := fun s h => by
    have hrule := h _ rfl (.custom fun _ => .error "Locked") (by simp)
    cases hrule
  obtain ⟨-, -, hdenied, -⟩ :=
    execute_gated (by decide : Operation.update ≠ .read) lockedNotes (some "1") retext oneNote
  obtain ⟨err, hdenies, hrun, -⟩ :=
    hdenied (.update "1" (.obj storedNote) newText) rfl (hlocked _)
  exact ⟨rfl, err, hdenies, hrun⟩

end EntityRest
