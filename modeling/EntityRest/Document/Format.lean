import EntityRest.Data.Double
import EntityRest.Data.OrdMap
import EntityRest.Json.Basic

/-!
Reading values from documents, whatever their format: what a value of a kind looks like is up to the
format, and what the value is for is up to the reader.

Records are read by key: unknown keys do not count, a missing key leaves a default, and a known key
must not occur twice.
-/

namespace EntityRest

/-- How the kinds of values are written in documents; a value of another kind is a failure. -/
structure Format (m : Type → Type) (δ : Type) where
  /-- The value itself, unless it is null. -/
  present : δ → m (Option δ)
  string : δ → m String
  /-- A word out of a fixed set. -/
  word : δ → m String
  bool : δ → m Bool
  /-- A whole number that 64 bits hold without a sign. -/
  nat : δ → m Nat
  bound : δ → m Bound
  list : δ → m (List δ)
  /-- The entries of a map from any keys. -/
  entries : δ → m (List (String × δ))
  /-- The members of a record with certain known keys. -/
  members : List String → δ → m (List (String × δ))
  /-- A value of any kind. -/
  value : δ → m Json

namespace Format

/--
In JSON a word may also stand as the only key of an object, with null as its value, and a record as
the list of its values in the order of the known keys, of which the last ones may be missing.
-/
def json : Format Option Json where
  present j := some (if j.isNull then none else some j)
  string := Json.string?
  word := fun
    | .str s => some s
    | .obj [(s, .null)] => some s
    | _ => none
  bool := fun
    | .bool b => some b
    | _ => none
  nat := fun
    | .num (.int n) => if 0 ≤ n then some n.toNat else none
    | _ => none
  bound := fun
    | .num n => some (.finite n.toDouble)
    | _ => none
  list := Json.items?
  entries := Json.fields?
  members known := fun
    | .arr values => if known.length < values.length then none else some (known.zip values)
    | j => j.fields?
  value := some

variable {m : Type → Type} [Monad m] [MonadExceptOf Unit m] {δ α : Type} (f : Format m δ)

/-- The values of a record by key, unless one of the known keys occurs twice. -/
def record (known : List String) (d : δ) : m (String → Option δ) := do
  let members ← f.members known d
  if known.any fun k => 1 < (members.filter (·.1 = k)).length then throw ()
  else pure fun k => members.lookup k

/-- A value of a record, or a default where there is none. -/
def orElse (default : α) (read : δ → m α) : Option δ → m α
  | none => pure default
  | some d => read d

/-- A value that may be null. -/
def nullable (read : δ → m α) (d : δ) : m (Option α) := do
  match ← f.present d with
  | none => pure none
  | some d => some <$> read d

/-- A value of a record that may be null or missing. -/
def maybe (read : δ → m α) : Option δ → m (Option α) := orElse none (f.nullable read)

/-- A word, as what it names. -/
def named (ofName? : String → Option α) (d : δ) : m α := do
  match ofName? (← f.word d) with
  | none => throw ()
  | some a => pure a

def listOf (read : δ → m α) (d : δ) : m (List α) := do (← f.list d).mapM read

/-- A map from any keys; of a repeated key the last value counts. -/
def mapOf (read : δ → m α) (d : δ) : m (OrdMap String α) := do
  let entries ← (← f.entries d).mapM fun (k, d) => (k, ·) <$> read d
  pure (OrdMap.ofList entries)

end Format

end EntityRest
