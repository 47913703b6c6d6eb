import EntityRest.Proofs.Driver.Writes
import EntityRest.Proofs.Store.Commit

/-! # Transactions of the in-memory driver

Work that succeeds ends in a commit of its private copy, work that fails leaves the live tables to
those who wrote them meanwhile (`runOn_transaction`). -/

namespace EntityRest.InMemory

variable {scope : Nat} {env env' : Env} {work : Nat → Action DriverError Json}

/-- The environment in which the work of a transaction starts. -/
def opened (env : Env) (scope : Nat) : Env := { env with copies := env.copies ++ [env.tables scope] }

/-- The scope in which the work of a transaction is done. -/
def innerScope (env : Env) : Nat := env.copies.length + 1

/-- The environment without the scopes that were opened since `env`. -/
def closed (env env' : Env) : Env := { env' with copies := env'.copies.take env.copies.length }

theorem runOn_transaction (env : Env) (scope : Nat) (work : Nat → Action DriverError Json) :
    (transaction scope work).runOn env =
      match (work (innerScope env)).runOn (opened env scope) with
      | (.ok v, env') =>
        (.ok v, (closed env env').setTables scope
          (((closed env env').tables scope).commit (env.tables scope) (env'.tables (innerScope env))))
      | (.error e, env') => (.error e, closed env env') := by
  have hopen : ({ env with copies := env.copies ++ [env.tables scope] } : Env) = opened env scope := rfl
  have hinner : (opened env scope).copies.length = innerScope env := by simp [opened, innerScope]
  unfold transaction openScope closeScope
  simp only [Action.runOn_bind, Action.runOn_get, Action.runOn_modify, Action.runOn_pure,
    Action.runOn_attempt, hopen, hinner]
  generalize (work (innerScope env)).runOn (opened env scope) = r
  rcases r with ⟨_ | _, env'⟩ <;> rfl

/-- The rows that a transaction leaves in a table are those that stay and those that it wrote. The
former come from the calls made outside of it, the latter from its own, and no two rows share a value
in an identity column if and only if no row that stays shares one with a row that it wrote. -/
theorem transaction_distinct_iff {schema : String → Entity} {enforceKeys : Bool} {v : Json}
    (hbase : Store.Everywhere Store.Distinct schema env.live)
    (hwork : (work (innerScope env)).runOn (opened env 0) = (.ok v, env'))
    (houtside : Store.Writes schema enforceKeys env.live env'.live)
    (hinside : Store.Writes schema enforceKeys env.live (env'.tables (innerScope env)))
    (table : String) :
    let base := env.live.rows table
    let outside := env'.live.rows table
    let inside := (env'.tables (innerScope env)).rows table
    let result := ((transaction 0 work).runOn env).2.live.rows table
    result.Perm (Store.keptRows outside base inside ++ Store.writtenRows outside base inside) ∧
      Store.keptRows outside base inside ⊆ outside ∧ Store.writtenRows outside base inside ⊆ inside ∧
      (Store.Distinct (schema table) result ↔
        ∀ row ∈ Store.keptRows outside base inside, ∀ other ∈ Store.writtenRows outside base inside,
          Store.Apart (schema table) row other) := by
  intro base outside inside result
  have hresult : result = Store.commitRows outside base inside := by
    show ((transaction 0 work).runOn env).2.live.rows table = _
    rw [runOn_transaction, hwork]
    exact Store.rows_commit_eq hinside.keys_subset table
  have hout : Store.Distinct (schema table) outside := houtside.distinct hbase table
  have hin : Store.Distinct (schema table) inside := hinside.distinct hbase table
  rw [hresult]
  exact ⟨Store.commitRows_perm outside base inside,
    fun row hrow => Store.mem_live_of_mem_keptRows hout hin hrow,
    fun row hrow => Store.mem_changed_of_mem_writtenRows hout hin hrow,
    Store.distinct_commitRows_iff hout hin⟩

/-- Creates an account inside of a transaction and another one, with the same address, outside of it. -/
def sameEmail (inner : Nat) : Action DriverError Json := do
  (Write.create account (.ofList [("id", .str "1"), ("email", .str "a")])).act (connect false inner)
  (Write.create account (.ofList [("id", .str "2"), ("email", .str "a")])).act (connect false 0)
  pure .null

/-- Each of the two creations passes the check of its own table, and the commit makes no check. -/
theorem not_distinct_transaction_sameEmail :
    (∃ env', (sameEmail 1).runOn (opened Env.empty 0) = (.ok .null, env') ∧
      Store.Writes (fun _ => account) false ∅ env'.live ∧
      Store.Writes (fun _ => account) false ∅ (env'.tables 1)) ∧
    ¬ Store.Distinct account
      (((transaction 0 sameEmail).runOn Env.empty).2.live.rows "account") := by
  let env' := ((sameEmail 1).runOn (opened Env.empty 0)).2
  have hwork : (sameEmail 1).runOn (opened Env.empty 0) = (.ok .null, env') := rfl
  have hcreate : Store.create ∅ false account ⟨"", ""⟩
      (.ofList [("id", .str "2"), ("email", .str "a")]) = .ok (_, env'.live) := rfl
  have hcreate' : Store.create ∅ false account ⟨"", ""⟩
      (.ofList [("id", .str "1"), ("email", .str "a")]) = .ok (_, env'.tables 1) := rfl
  have houtside : Store.Writes (fun _ => account) false ∅ env'.live := .single (.create rfl hcreate)
  have hinside : Store.Writes (fun _ => account) false ∅ (env'.tables 1) :=
    .single (.create rfl hcreate')
  refine ⟨⟨env', hwork, houtside, hinside⟩, fun hd => ?_⟩
  have hbase : Store.Everywhere Store.Distinct (fun _ => account) Env.empty.live := fun _ => .nil
  -- the row from outside stays, the row from inside is carried over, and the two share an address
  have hiff := (transaction_distinct_iff hbase hwork houtside hinside "account").2.2.2
  have hany : (Store.keptRows (env'.live.rows "account") [] ((env'.tables 1).rows "account")).any
      (fun row => (Store.writtenRows (env'.live.rows "account") []
        ((env'.tables 1).rows "account")).any (Store.clash "email" row)) = true := by decide +kernel
  obtain ⟨row, hrow, hany⟩ := List.any_eq_true.1 hany
  obtain ⟨other, hother, hclash⟩ := List.any_eq_true.1 hany
  have hemail : Store.IsIdentity account "email" := .inr ⟨_, rfl, rfl, rfl⟩
  exact hiff.1 hd row hrow other hother "email" hemail (Store.clash_eq_true_iff.1 hclash)

end EntityRest.InMemory
