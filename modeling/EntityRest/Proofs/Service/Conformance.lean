import EntityRest.Proofs.Service.Pipeline
import EntityRest.Proofs.Store.Conformance

/-! # What requests store follows the schema

The data that a request without hooks gives the driver were validated, and the pipeline adds the owner key
at most (`Written.conforms`). Together with what the driver adds, which is defaults and its own columns, this
is all that ever gets into a row (`run_conforms`). -/

namespace EntityRest

theorem Conforms.of_validated {e : Entity} {op : Operation} {body : Json} {data : Fields}
    (h : (Validation.input e op body).toExcept = .ok data) : Conforms e data := by
  intro c hc
  obtain ⟨d, hd, haccepts⟩ := Validation.accepts_of_toExcept h hc
  exact .input (List.mem_of_mem_filter hd) haccepts

namespace Pipeline

theorem conforms_withOwner {p : Pipeline} {data : Fields} (h : Conforms p.entity data) (user : Option User) :
    Conforms p.entity (p.withOwner user data) := by
  unfold withOwner
  split
  · next howner => exact h.insert (.owner howner)
  · exact h

section

variable {p : Pipeline} {enforceKeys : Bool} {req : Request} {s s' : Store}

theorem Written.conforms (h : p.Written enforceKeys req s s') (hdefaults : AcceptsDefaults p.entity)
    (hs : ∀ row ∈ s.rows p.entity.name, Conforms p.entity row) :
    ∀ row ∈ s'.rows p.entity.name, Conforms p.entity row := by
  cases h with
  | create hdata _ hcreate =>
    have hconforms := conforms_withOwner (.of_validated hdata) req.user
    exact Store.forall_rows_create hs (hconforms.newRow hdefaults _) hcreate
  | update _ hdata _ hupdate =>
    exact Store.forall_rows_update hs (fun _ hold => hold.updatedRow (.of_validated hdata) _) hupdate
  | delete _ _ hdelete => exact Store.forall_rows_delete hs hdelete

end

section

variable {e : Entity} {enforceKeys : Bool} {scope : Nat} {env : Env}

theorem conforms_run (hdefaults : AcceptsDefaults e) (calls : List Call)
    (h : ∀ row ∈ (env.tables scope).rows e.name, Conforms e row) :
    ∀ row ∈ ((run ⟨e, InMemory.connect enforceKeys scope, []⟩ env calls).tables scope).rows e.name,
      Conforms e row :=
  run_keeps (P := fun s => ∀ row ∈ s.rows e.name, Conforms e row)
    (fun _ _ _ hwritten => hwritten.conforms hdefaults) calls h

end

/-- Whatever requests are made from an empty table on, a row holds input keys, the owner key and the columns of
the driver only. Under an input key other than the owner key there is a value that its field accepts. -/
theorem run_conforms {e : Entity} (hnodup : (e.inputFields.map Prod.fst).Nodup)
    (hfree : ∀ key ∈ e.inputFields.map Prod.fst, key ∉ ["id", "createdAt", "updatedAt"])
    (hdefaults : ∀ name d v, e.field? name = some d → d.default = some v → d.relation = none ∧
      (v.isNull = true → d.optional = true) ∧ (v.isNull = false → Validation.scalarError? d v = none))
    (enforceKeys : Bool) (scope : Nat) (env : Env) (hempty : (env.tables scope).rows e.name = [])
    (calls : List Call) :
    let rows := ((run ⟨e, InMemory.connect enforceKeys scope, []⟩ env calls).tables scope).rows e.name
    ∀ row ∈ rows, ∀ key v, (key, v) ∈ row →
      (key ∈ e.inputFields.map Prod.fst ∨ e.ownerField = some key ∨
        key ∈ ["id", "createdAt", "updatedAt"]) ∧
      ∀ d, (key, d) ∈ e.inputFields → e.ownerField ≠ some key →
        (v.isNull = true → d.optional = true) ∧
          (v.isNull = false →
            (if d.isRelation then Validation.foreignKeyError? v else Validation.scalarError? d v) = none) := by
  have haccepts : AcceptsDefaults e := by
    intro name d v hd hv
    obtain ⟨hscalar, hnull, hvalue⟩ := hdefaults name d v hd hv
    refine ⟨hscalar, hnull, fun h => ?_⟩
    rw [Validation.valueError?, FieldDef.isRelation, hscalar]
    exact hvalue h
  intro rows row hrow key v hc
  have hconforms : Conforms e row :=
    conforms_run haccepts calls (by rw [hempty]; exact fun _ h => absurd h List.not_mem_nil) row hrow
  constructor
  · cases hconforms (key, v) hc with
    | input hd _ => exact .inl (List.mem_map.2 ⟨_, hd, rfl⟩)
    | owner h => exact .inr (.inl h)
    | driver h => exact .inr (.inr h)
  · intro d hd howner
    have haccepts := hconforms.accepts hnodup hfree hc hd howner
    exact ⟨haccepts.ofNull, haccepts.ofValue⟩

/-- Tickets are open at first, and they may have a note. -/
def ticket : Entity where
  name := "ticket"
  fields := OrdMap.ofList
    [("author", { FieldDef.ofType .string with
        relation := some ⟨.belongsTo, "user", "authorId", "id", none⟩ }),
      ("title", FieldDef.ofType .string),
      ("state", { FieldDef.ofType .string with default := some (.str "open") }),
      ("note", { FieldDef.ofType .text with optional := true, default := some .null })]
  rules := ∅
  ownerField := some "authorId"
  timestamps := true
  plugin := none

/-- A request with the given body. -/
def ticketRequest (body : List (String × Json)) : Request where
  method := "POST"
  path := "/"
  params := ∅
  query := ∅
  body := Json.object body
  headers := ∅
  user := some (.ofId "alice")
  context := []

/-- A ticket that claims more than it may, an update that is refused, and one that is not. -/
def ticketCalls : List Call :=
  [⟨.create, none, ticketRequest [("title", .str "one"), ("admin", .bool true), ("authorId", .int 7)]⟩,
    ⟨.update, some (Action.idText 0), ticketRequest [("title", .null)]⟩,
    ⟨.update, some (Action.idText 0), ticketRequest [("note", .str "later"), ("id", .null)]⟩]

/-- The shared tickets after these calls, from no ticket at all. -/
def tickets : List Fields :=
  ((run ⟨ticket, InMemory.connect false 0, []⟩ Env.empty ticketCalls).tables 0).rows "ticket"

theorem run_conforms_tickets :
    tickets.map (·.filter (·.1 ∉ driverColumns)) =
        [[("authorId", .str "alice"), ("note", .str "later"), ("state", .str "open"), ("title", .str "one")]] ∧
      ∀ row ∈ tickets, ∀ v, ("title", v) ∈ row →
        v.isNull = false ∧ Validation.scalarError? (FieldDef.ofType .string) v = none := by
  have hfields : ticket.fields.toList = [("author", _), ("title", _), ("state", _), ("note", _)] := rfl
  have hdefaults : ∀ name d v, ticket.field? name = some d → d.default = some v → d.relation = none ∧
      (v.isNull = true → d.optional = true) ∧ (v.isNull = false → Validation.scalarError? d v = none) := by
    intro name d v hd hv
    have hmem := OrdMap.get?_eq_some_iff.1 hd
    rw [hfields] at hmem
    simp only [List.mem_cons, Prod.mk.injEq, List.not_mem_nil, or_false] at hmem
    rcases hmem with ⟨-, rfl⟩ | ⟨-, rfl⟩ | ⟨-, rfl⟩ | ⟨-, rfl⟩ <;> cases hv
    · exact ⟨rfl, nofun, fun _ => rfl⟩
    · exact ⟨rfl, fun _ => rfl, nofun⟩
  have hrows := run_conforms (e := ticket) (by decide) (by decide) hdefaults false 0 Env.empty rfl ticketCalls
  refine ⟨rfl, fun row hrow v hc => ?_⟩
  have htitle : ("title", FieldDef.ofType .string) ∈ ticket.inputFields :=
    Entity.mem_inputFields_of_scalar rfl rfl
  obtain ⟨hnull, hvalue⟩ := (hrows row hrow "title" v hc).2 _ htitle (by decide)
  have hv : v.isNull = false := Bool.eq_false_iff.2 fun h => absurd (hnull h) (by decide)
  exact ⟨hv, hvalue hv⟩

end Pipeline

end EntityRest
