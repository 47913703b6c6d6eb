import EntityRest.Store.Write

/-!
Actions: computations that read and change what a running application keeps, and that may fail.

An action that fails keeps the changes it made before. Callbacks of users are actions too, so they
can do what the library does, and they can leave entries in the journal.
-/

namespace EntityRest

/-- A message for the operators of an application, with named details. -/
structure Warning where
  message : String
  details : List (String × String)
deriving DecidableEq

/-- What a running application keeps. -/
structure Env where
  /-- The tables that all requests share. -/
  live : Store
  /-- The private tables of open transactions, the outermost first. -/
  copies : List Store
  /-- How many stamps have been given out. -/
  issued : Nat
  /-- What callbacks have noted down, oldest first. -/
  journal : List Json
  /-- The warnings so far, oldest first. -/
  warnings : List Warning

namespace Env

def empty : Env := ⟨∅, [], 0, [], []⟩

instance : Inhabited Env := ⟨empty⟩

/-- The tables of a scope: 0 is the shared ones, `n + 1` the private ones of transaction `n`. -/
def tables (env : Env) : Nat → Store
  | 0 => env.live
  | n + 1 => env.copies.getD n ∅

def setTables (env : Env) (scope : Nat) (s : Store) : Env :=
  match scope with
  | 0 => { env with live := s }
  | n + 1 => { env with copies := env.copies.set n s }

end Env

/-- A computation on the environment that gives a value or fails. -/
abbrev Action (ε α : Type) := ExceptT ε (StateM Env) α

namespace Action

variable {ε δ α : Type}

def runOn (act : Action ε α) (env : Env) : Except ε α × Env := act.run env

/-- Turns the error of an action into another one. -/
def mapError (f : ε → δ) (act : Action ε α) : Action δ α :=
  ExceptT.mk do
    match ← act.run with
    | .ok a => pure (.ok a)
    | .error e => pure (.error (f e))

/-- The outcome of an action as a value; the action does not fail. -/
def attempt (act : Action ε α) : Action δ (Except ε α) := ExceptT.mk (Except.ok <$> act.run)

def ofExcept (r : Except ε α) : Action ε α := ExceptT.mk (pure r)

/-- Adds an entry to the journal. -/
def note (entry : Json) : Action ε Unit :=
  modify fun env => { env with journal := env.journal ++ [entry] }

def warn (w : Warning) : Action ε Unit :=
  modify fun env => { env with warnings := env.warnings ++ [w] }

/-- A text of the form of a random UUID that differs for each number below `16 ^ 12`. -/
def idText (n : Nat) : String :=
  let hex := Nat.toDigits 16 n
  "5f0c4d1e-93b7-4a26-8e5d-" ++ String.ofList (List.replicate (12 - hex.length) '0' ++ hex)

def padded (width n : Nat) : String :=
  let digits := Nat.toDigits 10 n
  String.ofList (List.replicate (width - digits.length) '0' ++ digits)

/-- A moment of the form of RFC 3339; a greater number gives a later moment. -/
def timeText (n : Nat) : String :=
  "2025-01-01T" ++ padded 2 (n / 3600000000000 % 24) ++ ":" ++ padded 2 (n / 60000000000 % 60) ++
    ":" ++ padded 2 (n / 1000000000 % 60) ++ "." ++ padded 9 (n % 1000000000) ++ "+00:00"

/-- A stamp that no other call gets. -/
def freshStamp : Action ε Stamp := do
  let n := (← get).issued
  modify fun env => { env with issued := n + 1 }
  pure ⟨idText n, timeText n⟩

end Action

end EntityRest
