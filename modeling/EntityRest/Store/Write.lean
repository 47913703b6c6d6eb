import EntityRest.Store.Basic

/-!
Writing rows: create, update and delete, each of which touches one row or fails without effect.

A row keeps the unique columns of its entity and its id different from those of all other rows, null
excepted. If the store is asked to, it refuses keys of belongsTo relations that no row answers to.
-/

namespace EntityRest

/-- What a new row is given: an id of its own, and the time. -/
structure Stamp where
  id : String
  time : String

namespace Store

/-- Puts the default of each field in whose key is absent. -/
def withDefaults (e : Entity) (data : Fields) : Fields :=
  e.fields.toList.foldl
    (fun record (name, d) =>
      match d.default with
      | some v => if record.contains name then record else record.insert name v
      | none => record)
    data

def withId (id : String) (record : Fields) : Fields :=
  if record.contains "id" then record else record.insert "id" (.str id)

/-- The row that a create makes of its data. -/
def newRow (e : Entity) (stamp : Stamp) (data : Fields) : Fields :=
  let record := withId stamp.id (withDefaults e data)
  if e.timestamps then
    (record.insert "createdAt" (.str stamp.time)).insert "updatedAt" (.str stamp.time)
  else record

/-- The row that an update makes of the old one. -/
def updatedRow (e : Entity) (stamp : Stamp) (old data : Fields) : Fields :=
  let record := old.union data
  if e.timestamps then record.insert "updatedAt" (.str stamp.time) else record

/-- The columns in which rows must differ. -/
def identityColumns (e : Entity) : List String := "id" :: e.uniqueFields

/-- Whether two rows hold the same value in a column; null and no value clash with nothing. -/
def clash (column : String) (row other : Fields) : Bool :=
  match row.get? column, other.get? column with
  | some v, some w => !v.isNull && w.same v
  | _, _ => false

/-- The first column in which a row clashes with one of the others. -/
def clashingColumn? (e : Entity) (row : Fields) (others : List Fields) : Option String :=
  (identityColumns e).find? fun column => others.any (clash column row)

/-- The first foreign key of a row that no row of its target answers to. -/
def danglingKey? (s : Store) (e : Entity) (row : Fields) : Option String :=
  (e.fields.values.filterMap FieldDef.belongsTo?).findSome? fun r =>
    match row.get? r.foreignKey with
    | none => none
    | some key =>
      if key.isNull || (s.rows r.target).any (holdsKey r.references key) then none
      else some r.foreignKey

/-- Refuses a row with a dangling key, if keys are enforced, or a clash with another row. -/
def checkRow (s : Store) (enforceKeys : Bool) (e : Entity) (row : Fields) (others : List Fields) :
    Except DriverError Unit :=
  match if enforceKeys then s.danglingKey? e row else none with
  | some key => .error (.foreignKeyViolation e.name key)
  | none =>
    match clashingColumn? e row others with
    | some column => .error (.uniqueViolation e.name [column])
    | none => .ok ()

/-- Appends a row; the result is the row with the new tables. -/
def create (s : Store) (enforceKeys : Bool) (e : Entity) (stamp : Stamp) (data : Fields) :
    Except DriverError (Fields × Store) :=
  let row := newRow e stamp data
  match s.checkRow enforceKeys e row (s.rows e.name) with
  | .error err => .error err
  | .ok () => .ok (row, s.insert e.name (s.rows e.name ++ [row]))

/-- Overwrites the first row that the filter accepts. -/
def update (s : Store) (enforceKeys : Bool) (e : Entity) (stamp : Stamp) (f : Filter)
    (data : Fields) : Except DriverError (Fields × Store) :=
  let rows := s.rows e.name
  let i := rows.findIdx f.accepts
  match rows[i]? with
  | none => .error (.recordNotFound e.name)
  | some old =>
    let row := updatedRow e stamp old data
    match s.checkRow enforceKeys e row (rows.eraseIdx i) with
    | .error err => .error err
    | .ok () => .ok (row, s.insert e.name (rows.set i row))

/-- Removes the first row that the filter accepts. -/
def delete (s : Store) (e : Entity) (f : Filter) : Except DriverError Store :=
  let rows := s.rows e.name
  let i := rows.findIdx f.accepts
  if i < rows.length then .ok (s.insert e.name (rows.eraseIdx i))
  else .error (.recordNotFound e.name)

end Store

end EntityRest
