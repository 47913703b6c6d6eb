import EntityRest.Proofs.Service.Conformance
import EntityRest.Proofs.Validation.Input

/-! # What clients can set

Of the body of a request nothing is used but what validation makes of it (`execute_congr_body`), so two bodies
that agree under the keys that clients may set are the same request (`execute_agree`). -/

namespace EntityRest.Pipeline

open Validation (Agree mem_clientFields)

variable {p : Pipeline} {req : Request}

theorem execute_congr_body {a b : Json}
    (h : ∀ op, Validation.input p.entity op a = Validation.input p.entity op b) (op : Operation)
    (id : Option String) : p.execute op id { req with body := a } = p.execute op id { req with body := b } := by
  cases op with
  | list => rfl
  | create =>
    show p.create _ = p.create _
    unfold create
    dsimp only
    rw [h .create]
    rfl
  | read => cases id <;> rfl
  | update =>
    cases id with
    | none => rfl
    | some id =>
      show p.update id _ = p.update id _
      unfold update
      dsimp only
      rw [h .update]
      rfl
  | delete => cases id <;> rfl

/-- Two bodies that agree under every input key but the owner key are answered alike and leave the same
environment behind, whatever the driver, the hooks, the user and the environment before are. So a key that is
no input key, and the owner key, may be set to any value, and it makes no difference. -/
theorem execute_agree (p : Pipeline) (op : Operation) (id : Option String) (req : Request) (a : Fields) :
    let run (body : Fields) (env : Env) := (p.execute op id { req with body := .obj body }).runOn env
    (∀ b : Fields, (∀ key d, (key, d) ∈ p.entity.inputFields → p.entity.ownerField ≠ some key →
        a.get? key = b.get? key) → ∀ env, run a env = run b env) ∧
      ∀ key, (∀ d, (key, d) ∈ p.entity.inputFields → p.entity.ownerField = some key) →
        ∀ v env, run (a.insert key v) env = run a env := by
  intro run
  have hagree {a b : Fields} (h : Agree p.entity a b) (env : Env) : run a env = run b env :=
    congrArg (·.runOn env) (execute_congr_body h.input_congr op id)
  refine ⟨fun b h => hagree fun c hc => ?_, fun key hkey v => hagree (.insert (fun d hd => ?_) a v)⟩
  · obtain ⟨hinput, howner⟩ := mem_clientFields.1 hc
    exact h c.1 c.2 hinput howner
  · obtain ⟨hinput, howner⟩ := mem_clientFields.1 hd
    exact howner (hkey d hinput)

/-- Notes down the data of a new ticket. -/
def noting : Hook := ⟨"ticket", .before .create, fun ctx => do
  Action.note (.obj ctx.input)
  pure ctx⟩

/-- A ticket that names another author, an id and a rank that there is no field for is the ticket without
them. -/
theorem execute_agree_tickets :
    let run (body : List (String × Json)) :=
      (execute ⟨ticket, InMemory.connect false 0, [noting]⟩ .create none (ticketRequest body)).runOn Env.empty
    run [("title", .str "one"), ("authorId", .str "bob"), ("id", .str "7"), ("rank", .str "admin")] =
        run [("title", .str "one")] ∧
      (run [("title", .str "one")]).2.journal =
        [Json.object [("authorId", .str "alice"), ("title", .str "one")]] := by
  intro run
  have hfields : ticket.inputFields = [("authorId", _), ("title", _), ("state", _), ("note", _)] := rfl
  refine ⟨(execute_agree ⟨ticket, InMemory.connect false 0, [noting]⟩ .create none (ticketRequest []) _).1 _
    (fun key d hd howner => ?_) Env.empty, rfl⟩
  rw [hfields] at hd
  simp only [List.mem_cons, Prod.mk.injEq, List.not_mem_nil, or_false] at hd
  rcases hd with ⟨rfl, -⟩ | ⟨rfl, -⟩ | ⟨rfl, -⟩ | ⟨rfl, -⟩
  · exact absurd rfl howner
  · rfl
  · rfl
  · rfl

end EntityRest.Pipeline
