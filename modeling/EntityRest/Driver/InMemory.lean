import EntityRest.Driver.Basic
import EntityRest.Store.Commit

/-!
The driver that keeps its records in the tables of the environment.

A transaction works on a private copy of the tables. If it succeeds, its changes are committed to
the tables it was started on; if it fails, the copy is dropped.
-/

namespace EntityRest.InMemory

/-- Reads from the tables of a scope. -/
def reading {ε α : Type} (scope : Nat) (f : Store → α) : Action ε α := do
  pure (f ((← get).tables scope))

/-- Replaces the tables of a scope, unless the write fails. -/
def writing {α : Type} (scope : Nat) (f : Stamp → Store → Except DriverError (α × Store)) :
    Action DriverError α := do
  let stamp ← Action.freshStamp
  let (a, s) ← Action.ofExcept (f stamp ((← get).tables scope))
  modify (·.setTables scope s)
  pure a

/-- Opens private tables, which start as a copy of those of a scope; the result is their scope. -/
def openScope {ε : Type} (base : Store) : Action ε Nat := do
  modify fun env => { env with copies := env.copies ++ [base] }
  pure (← get).copies.length

/-- Drops private tables; the result is what they held. -/
def closeScope {ε : Type} (scope : Nat) : Action ε Store := do
  let s := (← get).tables scope
  modify fun env => { env with copies := env.copies.take (scope - 1) }
  pure s

def transaction (scope : Nat) (work : Nat → Action DriverError Json) : Action DriverError Json := do
  let base := (← get).tables scope
  let inner ← openScope base
  let outcome ← (work inner).attempt
  let changed ← closeScope inner
  match outcome with
  | .error e => throw e
  | .ok v =>
    modify fun env => env.setTables scope (Store.commit (env.tables scope) base changed)
    pure v

/-- The driver; it checks the keys of belongsTo relations if asked to. -/
def driver (enforceKeys : Bool) : Driver where
  findOne scope e f := reading scope fun s => (s.find? e f).map .obj
  findOneWith scope e f names :=
    reading scope fun s => (s.find? e f).map fun r => .obj (s.embed e names r)
  findMany scope e q := reading scope fun s => (s.search e q).map .obj
  create scope e data := writing scope fun stamp s =>
    (s.create enforceKeys e stamp data).map fun (row, s) => (.obj row, s)
  update scope e f data := writing scope fun stamp s =>
    (s.update enforceKeys e stamp f data).map fun (row, s) => (.obj row, s)
  delete scope e f := writing scope fun _ s => (s.delete e f).map fun s => ((), s)
  count scope e f := reading scope fun s => s.count e f
  transaction := transaction

end EntityRest.InMemory
