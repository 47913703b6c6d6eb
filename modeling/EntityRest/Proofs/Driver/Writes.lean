import EntityRest.Proofs.Driver.InMemory
import EntityRest.Proofs.Store.Identity

/-! # Runs of writes on the in-memory driver

`Write` is a call of the driver that writes. Its effect on the tables is one `Store.Step` if it
succeeds and none if it fails (`wp_act`), so what steps keep holds in every environment that calls
lead to, whichever clients make them and in whichever order (`reached_distinct`). -/

open Relation (ReflTransGen)

namespace EntityRest

/-- A call of a driver that writes. -/
inductive Write where
  | create (e : Entity) (data : Fields)
  | update (e : Entity) (f : Filter) (data : Fields)
  | delete (e : Entity) (f : Filter)

namespace Write

def entity : Write → Entity
  | create e _ => e
  | update e _ _ => e
  | delete e _ => e

/-- The call on a connection, without its result. -/
def act (c : Connection) : Write → Action DriverError Unit
  | create e data => do let _ ← c.create e data; pure ()
  | update e f data => do let _ ← c.update e f data; pure ()
  | delete e f => do let _ ← c.delete e f; pure ()

end Write

namespace InMemory

section

variable {schema : String → Entity} {enforceKeys : Bool} {scope : Nat} {env : Env} {α : Type}

/-- The tables are as before, or a call that succeeded has made one step on them. -/
def Stepped (schema : String → Entity) (enforceKeys : Bool) (s : Store) (r : Except DriverError α)
    (s' : Store) : Prop :=
  s' = s ∨ r.isOk = true ∧ Store.Step schema enforceKeys s s'

theorem wp_discard_writing {f : Stamp → Store → Except DriverError (α × Store)}
    (hf : ∀ stamp a s, f stamp (env.tables scope) = .ok (a, s) →
      Store.Step schema enforceKeys (env.tables scope) s) :
    Action.wp (do let _ ← writing scope f; pure ())
      (fun r env' => Stepped schema enforceKeys (env.tables scope) r (env'.tables scope)) env := by
  have h := wp_writing_of (P := Stepped schema enforceKeys (env.tables scope)) (fun _ => .inl rfl)
    fun stamp a s h => .inr ⟨rfl, hf stamp a s h⟩
  refine Action.wp_bind.2 (Action.wp_mono h ?_)
  rintro (e | a) env' (h | ⟨⟨⟩, h⟩)
  exacts [.inl h, .inl h, .inr ⟨rfl, h⟩]

/-- A call that fails leaves the tables alone; one that succeeds makes one step. -/
theorem wp_act (w : Write) (hw : w.entity = schema w.entity.name) :
    Action.wp (w.act (connect enforceKeys scope))
      (fun r env' => Stepped schema enforceKeys (env.tables scope) r (env'.tables scope)) env := by
  cases w with
  | create e data =>
    rw [Write.act, create_connect]
    refine wp_discard_writing fun stamp a s h => ?_
    obtain ⟨⟨row, s'⟩, hrow, heq⟩ := exists_of_map_eq_ok h
    cases heq
    exact .create hw hrow
  | update e f data =>
    rw [Write.act, update_connect]
    refine wp_discard_writing fun stamp a s h => ?_
    obtain ⟨⟨row, s'⟩, hrow, heq⟩ := exists_of_map_eq_ok h
    cases heq
    exact .update hw hrow
  | delete e f =>
    rw [Write.act, delete_connect]
    refine wp_discard_writing fun stamp a s h => ?_
    obtain ⟨s', hs', heq⟩ := exists_of_map_eq_ok h
    cases heq
    exact .delete hw hs'

/--
The environments that calls on the tables of a scope lead to, if these are empty at first and each of
them is used with the entity that `schema` names. Between the calls anything may happen elsewhere.
-/
inductive Reached (schema : String → Entity) (enforceKeys : Bool) (scope : Nat) : Env → Prop
  | start {env : Env} (h : env.tables scope = ∅) : Reached schema enforceKeys scope env
  | call {env : Env} (h : Reached schema enforceKeys scope env) (w : Write)
      (hw : w.entity = schema w.entity.name) :
      Reached schema enforceKeys scope ((w.act (connect enforceKeys scope)).runOn env).2
  | elsewhere {env env' : Env} (h : Reached schema enforceKeys scope env)
      (heq : env'.tables scope = env.tables scope) : Reached schema enforceKeys scope env'

theorem Reached.writes (h : Reached schema enforceKeys scope env) :
    Store.Writes schema enforceKeys ∅ (env.tables scope) := by
  induction h with
  | start h => rw [h]
  | call _ w hw ih =>
    rcases wp_act w hw with heq | ⟨-, hstep⟩
    · rw [heq]; exact ih
    · exact ih.tail hstep
  | elsewhere _ heq ih => rw [heq]; exact ih

end

theorem rows_empty (table : String) : Store.rows ∅ table = [] := rfl

/-- Whatever calls are made, successful or not, every row has an id, and no two rows of a table share
a value in an identity column. -/
theorem reached_distinct {schema : String → Entity} {enforceKeys : Bool} {scope : Nat} {env : Env}
    (h : Reached schema enforceKeys scope env) (table : String) :
    (∀ row ∈ (env.tables scope).rows table, row.contains "id" = true) ∧
      Store.Distinct (schema table) ((env.tables scope).rows table) := by
  refine ⟨h.writes.hasId (fun table row hrow => ?_) table, h.writes.distinct (fun table => ?_) table⟩
  · rw [rows_empty] at hrow; cases hrow
  · rw [rows_empty]; exact .nil

/-- An entity with a unique column. -/
def account : Entity :=
  { Entity.placeholder "account" with
    fields := OrdMap.ofList [("email", { FieldDef.ofType .string with unique := true })]
    timestamps := false }

/-- Two accounts, after a third call failed that asked for the email address of the first. -/
theorem reached_distinct_accounts :
    ∃ env, Reached (fun _ => account) false 0 env ∧ (env.live.rows "account").length = 2 ∧
      (∀ row ∈ env.live.rows "account", row.contains "id" = true) ∧
      Store.Distinct account (env.live.rows "account") := by
  have h₁ : Reached (fun _ => account) false 0 Env.empty := .start rfl
  have h₂ := h₁.call (.create account (.ofList [("id", .str "1"), ("email", .str "a")])) rfl
  have h₃ := h₂.call (.create account (.ofList [("id", .str "2"), ("email", .str "b")])) rfl
  have h₄ := h₃.call (.update account (Filter.ofId "2") (.ofList [("email", .str "a")])) rfl
  exact ⟨_, h₄, by decide, reached_distinct h₄ "account"⟩

end InMemory

end EntityRest
