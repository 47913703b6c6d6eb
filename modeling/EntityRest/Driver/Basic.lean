import EntityRest.Effect.Action

/-!
Storage drivers: the operations through which everything else reaches stored records.

A driver works on the tables of a scope, the shared ones or those of a transaction. A connection is
a driver together with a scope.
-/

namespace EntityRest

structure Driver where
  findOne : Nat → Entity → Filter → Action DriverError (Option Json)
  /-- Like `findOne`, with relations embedded. -/
  findOneWith : Nat → Entity → Filter → List String → Action DriverError (Option Json)
  findMany : Nat → Entity → Search → Action DriverError (List Json)
  create : Nat → Entity → Fields → Action DriverError Json
  /-- Changes the first record that the filter accepts. -/
  update : Nat → Entity → Filter → Fields → Action DriverError Json
  /-- Removes the first record that the filter accepts. -/
  delete : Nat → Entity → Filter → Action DriverError Unit
  count : Nat → Entity → Option Filter → Action DriverError Nat
  /-- Runs work in a scope of its own, which counts as a whole or not at all. -/
  transaction : Nat → (Nat → Action DriverError Json) → Action DriverError Json

namespace Driver

/-- A driver with the least abilities: it neither embeds relations nor knows transactions. -/
def plain (d : Driver) : Driver :=
  { d with
    findOneWith := fun scope e f _ => d.findOne scope e f
    transaction := fun _ _ => throw (.unsupported "transactions") }

end Driver

/-- A driver at work in a scope. -/
structure Connection where
  driver : Driver
  scope : Nat

namespace Connection

def findOne (c : Connection) := c.driver.findOne c.scope

def findOneWith (c : Connection) := c.driver.findOneWith c.scope

def findMany (c : Connection) := c.driver.findMany c.scope

def create (c : Connection) := c.driver.create c.scope

def update (c : Connection) := c.driver.update c.scope

def delete (c : Connection) := c.driver.delete c.scope

def count (c : Connection) := c.driver.count c.scope

def transaction (c : Connection) (work : Connection → Action DriverError Json) :
    Action DriverError Json :=
  c.driver.transaction c.scope fun scope => work { c with scope }

end Connection

end EntityRest
