import EntityRest.Driver.InMemory
import EntityRest.Proofs.Effect.Action

/-! # Running the in-memory driver

The calls of a connection are `reading` or `writing` of the tables of its scope, and this is what the
two do: reading changes nothing, writing uses up a stamp and replaces the tables if it succeeds. -/

namespace EntityRest

namespace Env

variable {env : Env} {scope : Nat} {s : Store}

/-- Writing to a scope that is open replaces its tables; one that is not open has none to replace. -/
theorem tables_setTables_self (env : Env) (scope : Nat) (s : Store) :
    (env.setTables scope s).tables scope = s ∨
      (env.setTables scope s).tables scope = env.tables scope := by
  cases scope with
  | zero => exact .inl rfl
  | succ n =>
    by_cases hn : n < env.copies.length
    · left; simp [tables, setTables, hn]
    · right; simp [tables, setTables, List.set_eq_of_length_le (Nat.le_of_not_lt hn)]

theorem tables_setTables_of_le (h : scope ≤ env.copies.length) : (env.setTables scope s).tables scope = s := by
  cases scope with
  | zero => rfl
  | succ n => simp [tables, setTables, Nat.lt_of_succ_le h]

/-- A scope that has tables is open. -/
theorem tables_setTables_of_ne_empty (h : env.tables scope ≠ ∅) : (env.setTables scope s).tables scope = s := by
  refine tables_setTables_of_le (Nat.le_of_not_lt fun hlt => h ?_)
  obtain ⟨n, rfl⟩ := Nat.exists_eq_succ_of_ne_zero (Nat.ne_of_gt (Nat.zero_lt_of_lt hlt))
  simp [tables, List.getElem?_eq_none (Nat.le_of_lt_succ hlt)]

theorem tables_setTables_of_ne {other : Nat} (h : other ≠ scope) :
    (env.setTables scope s).tables other = env.tables other := by
  cases scope <;> cases other <;> simp_all [tables, setTables, eq_comm]

@[simp] theorem tables_issued (n : Nat) : ({ env with issued := n } : Env).tables scope = env.tables scope := by
  cases scope <;> rfl

end Env

namespace InMemory

variable {ε α : Type} {scope : Nat} {env : Env}

@[simp] theorem wp_reading {f : Store → α} {Q : Except ε α → Env → Prop} :
    Action.wp (reading scope f) Q env ↔ Q (.ok (f (env.tables scope))) env := Iff.rfl

/-- What the next stamp of an environment is. -/
def nextStamp (env : Env) : Stamp := ⟨Action.idText env.issued, Action.timeText env.issued⟩

/-- A write uses up a stamp; only if it succeeds the tables change. -/
theorem wp_writing {f : Stamp → Store → Except DriverError (α × Store)}
    {Q : Except DriverError α → Env → Prop} :
    Action.wp (writing scope f) Q env ↔
      match f (nextStamp env) (env.tables scope) with
      | .ok (a, s) => Q (.ok a) ({ env with issued := env.issued + 1 }.setTables scope s)
      | .error e => Q (.error e) { env with issued := env.issued + 1 } := by
  unfold writing Action.freshStamp
  simp only [Action.wp_bind, Action.wp_get, Action.wp_modify, Action.wp_pure, Action.wp_ofExcept,
    Env.tables_issued]
  unfold nextStamp
  generalize f _ (env.tables scope) = r
  rcases r with e | ⟨a, s⟩ <;> rfl

theorem runOn_writing (f : Stamp → Store → Except DriverError (α × Store)) (scope : Nat) (env : Env) :
    (writing scope f).runOn env =
      match f (nextStamp env) (env.tables scope) with
      | .ok (a, s) => (.ok a, { env with issued := env.issued + 1 }.setTables scope s)
      | .error e => (.error e, { env with issued := env.issued + 1 }) := by
  have hwp : Action.wp (writing scope f) (fun r env' => (r, env') =
      match f (nextStamp env) (env.tables scope) with
      | .ok (a, s) => (.ok a, { env with issued := env.issued + 1 }.setTables scope s)
      | .error e => (.error e, { env with issued := env.issued + 1 })) env := by
    rw [wp_writing]
    rcases f (nextStamp env) (env.tables scope) with e | ⟨a, s⟩ <;> rfl
  exact hwp

theorem runOn_writing_of_ok {f : Stamp → Store → Except DriverError (α × Store)} {a : α} {s : Store}
    (h : f (nextStamp env) (env.tables scope) = .ok (a, s)) :
    (writing scope f).runOn env = (.ok a, { env with issued := env.issued + 1 }.setTables scope s) := by
  rw [runOn_writing, h]

/-- What holds of the tables before a write, and of what the write makes of them, holds after it. -/
theorem wp_writing_of {f : Stamp → Store → Except DriverError (α × Store)}
    {P : Except DriverError α → Store → Prop} (hkeep : ∀ r, P r (env.tables scope))
    (hwrite : ∀ stamp a s, f stamp (env.tables scope) = .ok (a, s) → P (.ok a) s) :
    Action.wp (writing scope f) (fun r env' => P r (env'.tables scope)) env := by
  rw [wp_writing]
  cases heq : f (nextStamp env) (env.tables scope) with
  | error e =>
    show P (.error e) (({ env with issued := env.issued + 1 } : Env).tables scope)
    rw [Env.tables_issued]; exact hkeep _
  | ok r =>
    obtain ⟨a, s⟩ := r
    have hs := hwrite _ a s heq
    -- a scope that is not open has no tables to replace
    rcases Env.tables_setTables_self { env with issued := env.issued + 1 } scope s with h | h
    · show P (.ok a) _
      rw [h]; exact hs
    · show P (.ok a) _
      rw [h, Env.tables_issued]; exact hkeep _

/-! ### The calls of a connection -/

section Calls

variable {enforceKeys : Bool} {e : Entity} {f : Filter} {data : Fields}

/-- A connection to the tables of a scope. -/
abbrev connect (enforceKeys : Bool) (scope : Nat) : Connection := ⟨driver enforceKeys, scope⟩

theorem findOne_connect : (connect enforceKeys scope).findOne e f =
    reading scope fun s => (s.find? e f).map .obj := rfl

theorem runOn_findOne_connect : ((connect enforceKeys scope).findOne e f).runOn env =
    (.ok (((env.tables scope).find? e f).map .obj), env) := rfl

theorem create_connect : (connect enforceKeys scope).create e data =
    writing scope fun stamp s =>
      (s.create enforceKeys e stamp data).map fun (row, s) => (.obj row, s) := rfl

theorem update_connect : (connect enforceKeys scope).update e f data =
    writing scope fun stamp s =>
      (s.update enforceKeys e stamp f data).map fun (row, s) => (.obj row, s) := rfl

theorem delete_connect : (connect enforceKeys scope).delete e f =
    writing scope fun _ s => (s.delete e f).map fun s => ((), s) := rfl

theorem readOnly_findOne : ((connect enforceKeys scope).findOne e f).ReadOnly := fun _ => rfl

theorem readOnly_findOneWith {names : List String} :
    ((connect enforceKeys scope).findOneWith e f names).ReadOnly := fun _ => rfl

theorem readOnly_findMany {q : Search} : ((connect enforceKeys scope).findMany e q).ReadOnly :=
  fun _ => rfl

theorem readOnly_count {f : Option Filter} : ((connect enforceKeys scope).count e f).ReadOnly :=
  fun _ => rfl

end Calls

end InMemory

end EntityRest
