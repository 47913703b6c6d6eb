import EntityRest.Proofs.Access.Check
import EntityRest.Proofs.Hook.Chain
import EntityRest.Proofs.Service.Pipeline

/-! # What a successful read has behind it

A read is answered with status 200 in two cases only (`read_status_ok`): a hook has stopped it before
the look-up, or the record that the filter selects was found and all rules hold of it. The first case
asks no rule, so a hook that stops a read answers in place of the rules as well
(`read_stopped_unauthorized`). -/

namespace EntityRest

namespace Pipeline

variable {p : Pipeline} {id : String} {req : Request} {env env' : Env}

/-- The context in which the hooks before a read start. -/
abbrev readContext (p : Pipeline) (id : String) (req : Request) : HookContext :=
  { p.context .read req with filter := Filter.ofId id }

theorem runOn_fetch_eq_ok {f : Filter} {record : Json} (h : (p.fetch f).runOn env = (.ok record, env')) :
    (p.connection.findOne p.entity f).runOn env = (.ok (some record), env') := by
  obtain ⟨found, env₁, hfound, h⟩ := Action.runOn_bind_eq_ok h
  cases found with
  | none => cases h
  | some found => cases h; exact Action.runOn_mapError_eq_ok hfound

theorem runOn_authorize_eq_ok {op : Operation} {resource input : Option Json} {u : Unit}
    (h : (p.authorize op req resource input).runOn env = (.ok u, env')) :
    Access.Allows p.entity op ⟨p.entity.name, op, req.user, resource, input⟩ := by
  rw [runOn_authorize] at h
  cases hcheck : Access.check p.entity op ⟨p.entity.name, op, req.user, resource, input⟩ with
  | error d => rw [hcheck] at h; cases h
  | ok u => exact Access.check_eq_ok_iff.1 hcheck

/-- The status of the answer to a request. -/
def statusOf : Except ApiError Response → Nat
  | .ok r => r.status
  | .error err => err.status

theorem status_ne_ok (err : ApiError) : err.status ≠ 200 := by
  cases err <;> simp [ApiError.status]

/-- A read is answered with status 200 only if a hook has stopped it, and is then answered with what that
hook left and nothing else done, or if the record was found that the filter selects as the hooks left
it, and every rule holds of that record. -/
theorem read_status_ok (h : statusOf ((p.read id req).runOn env).1 = 200) :
    ∃ ctx env₁, (runHooks p.hooks (.before .read) (p.readContext id req)).runOn env = (.ok ctx, env₁) ∧
      (ctx.stopped = true ∧
          (∃ hook ∈ p.hooks, hook.event = .before .read ∧ ∃ given env₀,
            given.stopped = false ∧ (hook.run given).runOn env₀ = (.ok ctx, env₁)) ∧
          (p.read id req).runOn env = (.ok (.ok (answer ctx)), env₁) ∨
        ctx.stopped = false ∧ ∃ record env₂,
          (p.connection.findOne p.entity ctx.filter).runOn env₁ = (.ok (some record), env₂) ∧
          Access.Allows p.entity .read ⟨p.entity.name, .read, req.user, some record, none⟩ ∧
          ∀ enforceKeys scope, p.connection = InMemory.connect enforceKeys scope →
            ∃ row, (env₁.tables scope).find? p.entity ctx.filter = some row ∧ record = .obj row) := by
  rcases hrun : (p.read id req).runOn env with ⟨err | r, env'⟩
  · rw [hrun] at h; exact absurd h (status_ne_ok err)
  · obtain ⟨ctx, env₁, hhooks, hrest⟩ := Action.runOn_bind_eq_ok hrun
    refine ⟨ctx, env₁, hhooks, ?_⟩
    cases hstop : ctx.stopped with
    | true =>
      rw [if_pos hstop] at hrest
      cases hrest
      exact .inl ⟨rfl, exists_hook_of_stopped rfl hhooks hstop, rfl⟩
    | false =>
      rw [if_neg (by simp [hstop])] at hrest
      obtain ⟨record, env₂, hfetch, hrest⟩ := Action.runOn_bind_eq_ok hrest
      obtain ⟨u, env₃, hauthorize, -⟩ := Action.runOn_bind_eq_ok hrest
      have hfound := runOn_fetch_eq_ok hfetch
      refine .inr ⟨rfl, record, env₂, hfound, runOn_authorize_eq_ok hauthorize,
        fun enforceKeys scope hconnection => ?_⟩
      rw [hconnection, InMemory.runOn_findOne_connect] at hfound
      obtain ⟨row, hrow, rfl⟩ : ∃ row, (env₁.tables scope).find? p.entity ctx.filter = some row ∧
          Json.obj row = record := by simpa using congrArg Prod.fst hfound
      exact ⟨row, hrow, rfl⟩

/-- Notes that only administrators may read. -/
def secretNote : Entity where
  name := "note"
  fields := OrdMap.ofList [("text", FieldDef.ofType .string)]
  rules := OrdMap.ofList [(.read, [.admin])]
  ownerField := none
  timestamps := false
  plugin := none

def twoNotes : Env :=
  { Env.empty with
    live := OrdMap.ofList [("note", [
      Fields.ofList [("id", .str "1"), ("text", .str "a")],
      Fields.ofList [("id", .str "2"), ("text", .str "b")]])] }

/-- Whoever asks for a note gets the second one. -/
def redirecting : Hook where
  entity := "note"
  event := .before .read
  run ctx := pure { ctx with filter := Filter.ofId "2" }

/-- An administrator asks for the first note, and the rule is asked about the second. -/
theorem read_status_ok_redirected :
    let p : Pipeline := ⟨secretNote, InMemory.connect false 0, [redirecting]⟩
    let req := { Request.ofPath "GET" "/notes/1" with user := some ⟨"root", some "admin", []⟩ }
    statusOf ((p.read "1" req).runOn twoNotes).1 = 200 ∧
      ∃ record, (record.field? "text") = some (.str "b") ∧
        Access.Allows secretNote .read ⟨"note", .read, req.user, some record, none⟩ := by
  intro p req
  have hstatus : statusOf ((p.read "1" req).runOn twoNotes).1 = 200 := rfl
  obtain ⟨ctx, env₁, hhooks, hstopped | hfound⟩ := read_status_ok hstatus
  · cases hhooks; cases hstopped.1
  · cases hhooks
    obtain ⟨-, record, env₂, hfound, hallows, -⟩ := hfound
    cases hfound
    exact ⟨hstatus, _, rfl, hallows⟩

/-- Answers every read from a cache. -/
def caching : Hook where
  entity := "note"
  event := .before .read
  run ctx := pure (ctx.stopWith (Json.object [("cached", .bool true)]))

/-- A stopped read is answered with status 200, and there is no record of which its caller would pass the
rules. -/
theorem read_stopped_unauthorized :
    let p : Pipeline := ⟨secretNote, InMemory.connect false 0, [caching]⟩
    let req := Request.ofPath "GET" "/notes/1"
    (p.read "1" req).runOn twoNotes =
        (.ok (.ok (Json.object [("cached", .bool true)])), twoNotes) ∧
      ∀ record, ¬Access.Allows secretNote .read ⟨"note", .read, req.user, some record, none⟩ := by
  intro p req
  refine ⟨rfl, fun record hallows => ?_⟩
  have hadmin := hallows _ rfl .admin (by simp)
  cases hadmin

end Pipeline

end EntityRest
