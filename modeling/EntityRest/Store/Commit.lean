import EntityRest.Json.Printer
import EntityRest.Store.Basic

/-!
Committing a transaction: what it changed in its private copy of the tables is carried over to the
live tables, row by row and by id, so that what others wrote in the meantime stays.
-/

namespace EntityRest.Store

/-- The text of a row's id, by which the rows of different copies are told apart. -/
def rowKey? (row : Fields) : Option String := (row.get? "id").map Json.text

/-- The last row with a key. -/
def rowOf? (rows : List Fields) (key : String) : Option Fields :=
  rows.reverse.find? fun row => rowKey? row = some key

/-- Whether a live row stays: the transaction did not remove the row of its key. -/
def survives (base changed : List Fields) (row : Fields) : Bool :=
  match rowKey? row with
  | none => true
  | some key => (rowOf? base key).isNone || (rowOf? changed key).isSome

/-- Puts a row in the place of the first one with its key, or at the end. -/
def putRow (rows : List Fields) (key : String) (row : Fields) : List Fields :=
  let i := rows.findIdx fun r => rowKey? r = some key
  if i < rows.length then rows.set i row else rows ++ [row]

/-- Carries a row of the private copy over, unless the transaction left it as it was. -/
def carryRow (base live : List Fields) (row : Fields) : List Fields :=
  match rowKey? row with
  | none => live
  | some key =>
    match rowOf? base key with
    | some old => if Json.sameFields old row then live else putRow live key row
    | none => putRow live key row

def commitRows (live base changed : List Fields) : List Fields :=
  changed.foldl (carryRow base) (live.filter (survives base changed))

/-- Carries the difference between `base` and `changed` over to `live`. -/
def commit (live base changed : Store) : Store :=
  changed.keys.foldl
    (fun s table =>
      s.insert table (commitRows (s.rows table) (base.rows table) (changed.rows table)))
    live

end EntityRest.Store
