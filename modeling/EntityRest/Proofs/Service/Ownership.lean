import EntityRest.Proofs.Schema.Declaration
import EntityRest.Proofs.Service.Pipeline
import EntityRest.Proofs.Store.Ownership
import EntityRest.Proofs.Validation.Input

/-! # Requests for rows with an owner

The operations of an entity that has an owner and no rules of its own, without hooks. A request
changes at most one row, and one that belongs to its user; no request changes the owner key of a row,
and a row that it adds belongs to its user (`run_ownChange`). So the rows of a user who makes no
request stay as they are (`run_filter_owns`).

Five things work together: validation drops the owner key, the pipeline sets it, the rule looks at the
record that the id selects, the driver selects the same one again, and merging leaves the other
columns alone. -/

namespace EntityRest

/-! ### Rules -/

/-- The owner key is `k`, which the driver does not set, and the rules are those that come with an
owner. -/
structure OwnedBy (e : Entity) (k : String) : Prop where
  ownerField : e.ownerField = some k
  rules : e.rules = EntityDecl.ownerRules k
  created : k ≠ "createdAt"
  updated : k ≠ "updatedAt"

theorem ownedBy_of_build {σ : Type} {lookup : TargetLookup (StateM σ)} {st st' : σ}
    {d₀ d : EntityDecl} {field k : String} {timestamps : Bool} {e : Entity}
    (howned : d₀.ownedBy field = .ok d) (hrules : d₀.rules = ∅)
    (hbuild : ((d.withTimestamps timestamps).build lookup).run st = (.ok e, st'))
    (hk : e.ownerField = some k) (hcreated : k ≠ "createdAt") (hupdated : k ≠ "updatedAt") :
    OwnedBy e k := by
  obtain ⟨fields, -, rfl⟩ := EntityDecl.exists_fields_of_build hbuild
  refine ⟨hk, ?_, hcreated, hupdated⟩
  rw [EntityDecl.ownedBy_eq] at howned
  split at howned
  · cases howned
    cases hk
    show OrdMap.union _ d₀.rules = _
    rw [hrules]; rfl
  · cases howned

section Rules

variable {e : Entity} {k : String} {ctx : RuleContext}

theorem OwnedBy.rulesFor (h : OwnedBy e k) (op : Operation) :
    e.rulesFor op = some (EntityDecl.ownerRule k op) := by
  rw [Entity.rulesFor, h.rules, EntityDecl.get?_ownerRules]

theorem OwnedBy.isSome_user_of_create (h : OwnedBy e k) (hc : Access.check e .create ctx = .ok ()) :
    ∃ u, ctx.user = some u := by
  rw [Access.check, h.rulesFor] at hc
  change Access.checkAll e ctx [.authenticated] = .ok () at hc
  cases hu : ctx.user with
  | none => simp [Access.checkAll, Rule.evaluate, hu] at hc
  | some u => exact ⟨u, rfl⟩

theorem OwnedBy.owns_of_check (h : OwnedBy e k) {op : Operation} {row : Fields}
    (hop : op = .update ∨ op = .delete) (hres : ctx.resource = some (.obj row))
    (hc : Access.check e op ctx = .ok ()) : owns k ctx.user row = true := by
  have hrules : e.rulesFor op = some [.owner (some k)] := by
    rw [h.rulesFor]
    rcases hop with rfl | rfl <;> rfl
  rw [Access.check, hrules] at hc
  dsimp only at hc
  unfold Access.checkAll at hc
  cases hu : ctx.user with
  | none => simp [Rule.evaluate, hu] at hc
  | some u =>
    have heval : (Rule.owner (some k)).evaluate e ctx = .ok (owns k ctx.user row) := by
      simp [Rule.evaluate, hu, hres, owns, Rule.ownerKey, Json.field?, Json.fields?]
    rw [heval, hu] at hc
    cases hown : owns k (some u) row with
    | true => rfl
    | false => rw [hown] at hc; cases hc

end Rules

/-! ### Operations -/

section Operations

open InMemory (connect)

variable {e : Entity} {k : String} {enforceKeys : Bool} {scope : Nat} {req : Request} {env : Env}

/-- What `act` leaves in the tables of a scope, a request of `user` may leave there. -/
def Owning (e : Entity) (k : String) (user : Option User) (scope : Nat) (env : Env)
    (act : Action ApiError Response) : Prop :=
  Action.wp act (fun _ env' => OwnTables e k user (env.tables scope) (env'.tables scope)) env

theorem OwnedBy.ownTables (h : OwnedBy e k) {c : Connection} {s s' : Store}
    (hwritten : Pipeline.Written ⟨e, c, []⟩ enforceKeys req s s') : OwnTables e k req.user s s' := by
  cases hwritten with
  | create hdata hcheck hcreate =>
    -- a user is there, so the pipeline sets the owner key, over what the document says
    obtain ⟨u, hu⟩ : ∃ u, req.user = some u := h.isSome_user_of_create hcheck
    simp only [Pipeline.withOwner, h.ownerField, hu] at hcreate
    rw [hu]
    exact .of_create h.created h.updated (by simp [Fields.get?_insert]) hcreate
  | update hfind hdata hcheck hupdate =>
    -- the document has no say in the owner key, so merging keeps it
    have hkept := Validation.contains_owner_of_toExcept h.ownerField hdata
    have hown := h.owns_of_check (.inl rfl) rfl hcheck
    exact .of_update h.updated hfind hown hkept hupdate
  | delete hfind hcheck hdelete =>
    have hown := h.owns_of_check (.inr rfl) rfl hcheck
    exact .of_delete hfind hown hdelete

theorem OwnedBy.owning_execute (h : OwnedBy e k) (op : Operation) (id : Option String) :
    Owning e k req.user scope env (Pipeline.execute ⟨e, connect enforceKeys scope, []⟩ op id req) := by
  refine Action.wp_mono (Pipeline.writesOnce_execute op id) ?_
  rintro _ env' (hsame | hwritten)
  · rw [hsame]; exact .refl
  · exact h.ownTables hwritten

end Operations

/-! ### Runs -/

section Runs

open InMemory (connect)

variable {e : Entity} {k : String} {enforceKeys : Bool} {scope : Nat} {env : Env}

/-- The rows of a user stay as they are while others make requests. -/
theorem OwnedBy.run_filter_owns (h : OwnedBy e k) {u : User} {calls : List Call}
    (habsent : ∀ c ∈ calls, ∀ v, c.request.user = some v → v.id ≠ u.id) :
    (((Pipeline.run ⟨e, connect enforceKeys scope, []⟩ env calls).tables scope).rows e.name).filter
        (owns k (some u)) =
      ((env.tables scope).rows e.name).filter (owns k (some u)) := by
  induction calls generalizing env with
  | nil => rfl
  | cons c calls ih =>
    have hstep : Owning e k c.request.user scope env
        (Pipeline.execute ⟨e, connect enforceKeys scope, []⟩ c.op c.id c.request) :=
      h.owning_execute c.op c.id
    exact (ih fun c' hc' => habsent c' (List.mem_cons_of_mem _ hc')).trans
      (hstep.own.filter_owner (habsent c List.mem_cons_self))

end Runs

/-- Whatever calls came before, a request changes only rows of its user, and no owner key. -/
theorem run_ownChange {σ : Type} {lookup : TargetLookup (StateM σ)} {st st' : σ} {d₀ d : EntityDecl}
    {field k : String} {timestamps : Bool} {e : Entity} (howned : d₀.ownedBy field = .ok d)
    (hrules : d₀.rules = ∅) (hbuild : ((d.withTimestamps timestamps).build lookup).run st = (.ok e, st'))
    (hk : e.ownerField = some k) (hcreated : k ≠ "createdAt") (hupdated : k ≠ "updatedAt")
    (enforceKeys : Bool) (scope : Nat) (env : Env) (calls : List Call) (call : Call) :
    let p : Pipeline := ⟨e, InMemory.connect enforceKeys scope, []⟩
    let before := (p.run env calls).tables scope
    let after := (p.run env (calls ++ [call])).tables scope
    OwnChange k call.request.user (before.rows e.name) (after.rows e.name) ∧
      (after.rows e.name).filter (!owns k call.request.user ·) =
        (before.rows e.name).filter (!owns k call.request.user ·) ∧
      ∀ table, table ≠ e.name → after.rows table = before.rows table := by
  intro p before after
  have hown := ownedBy_of_build howned hrules hbuild hk hcreated hupdated
  have hstep : OwnTables e k call.request.user before after := by
    show OwnTables _ _ _ _ ((p.run env (calls ++ [call])).tables scope)
    rw [Pipeline.run, List.foldl_append]
    exact hown.owning_execute call.op call.id
  exact ⟨hstep.own, hstep.own.filter_others, hstep.others⟩

/-- Posts with a title and an author. -/
def postDecl : EntityDecl where
  name := "post"
  fields := OrdMap.ofList
    [("author", .relation ⟨.belongsTo, .named "user", some "authorId", none, none, false⟩),
      ("title", .column (FieldDef.ofType .string))]
  rules := ∅
  defaultRules := ∅
  ownerField := none
  timestamps := true

/-- Posts that belong to their authors. -/
def post : Entity where
  name := "post"
  fields := OrdMap.ofList
    [("author", { FieldDef.ofType .string with
        relation := some ⟨.belongsTo, "user", "authorId", "id", none⟩ }),
      ("title", FieldDef.ofType .string)]
  rules := EntityDecl.ownerRules "authorId"
  ownerField := some "authorId"
  timestamps := false
  plugin := none

/-- A request of a user with a title and an author of the user's choice in its body. -/
def titled (user title : String) : Request where
  method := "POST"
  path := "/"
  params := ∅
  query := ∅
  body := Json.object [("title", .str title), ("authorId", .str "mallory")]
  headers := ∅
  user := some (.ofId user)
  context := []

/-- The shared posts after calls, from no post at all. -/
def postsAfter (calls : List Call) : List Fields :=
  ((Pipeline.run ⟨post, InMemory.connect false 0, []⟩ Env.empty calls).tables 0).rows "post"

/-- A post, an attempt of another user to take it over, and a change by its author. -/
def postCalls : List Call :=
  [⟨.create, none, titled "alice" "one"⟩,
    ⟨.update, some (Action.idText 0), titled "mallory" "mine"⟩,
    ⟨.update, some (Action.idText 0), titled "alice" "two"⟩]

/-- The author's change is made, and the other user's is not. -/
theorem run_ownChange_postCalls :
    (postsAfter postCalls).map (fun row => (row.get? "authorId", row.get? "title")) =
        [(some (.str "alice"), some (.str "two"))] ∧
      postsAfter (postCalls.take 2) = postsAfter (postCalls.take 1) ∧
      OwnChange "authorId" (some (.ofId "alice")) (postsAfter (postCalls.take 2))
        (postsAfter postCalls) := by
  have howned : postDecl.ownedBy "author" =
      .ok { postDecl with
        defaultRules := EntityDecl.ownerRules "authorId", ownerField := some "authorId" } := rfl
  have hbuild : ((EntityDecl.withTimestamps { postDecl with
        defaultRules := EntityDecl.ownerRules "authorId", ownerField := some "authorId" } false).build
      (fun _ => pure (.ok "user") : TargetLookup (StateM Unit))).run () = (.ok post, ()) := rfl
  have hstep := run_ownChange howned rfl hbuild rfl (by decide) (by decide) false 0 Env.empty
    (postCalls.take 2) ⟨.update, some (Action.idText 0), titled "alice" "two"⟩
  refine ⟨?_, ?_, hstep.1⟩
  · rfl
  · rfl

end EntityRest
