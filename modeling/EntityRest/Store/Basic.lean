import EntityRest.Query.List
import EntityRest.Query.Sort
import EntityRest.Schema.Entity

/-!
The stored rows, by table, and what is read from them.

A table is named like its entity; a table that is missing has no rows. Reading can embed related
rows under the names of relation fields.
-/

namespace EntityRest

/-- The tables, each with its rows in the order of insertion. -/
abbrev Store := OrdMap String (List Fields)

/-- What a search for several records asks for. -/
structure Search where
  filter : Filter
  sort : Sorting
  take : Option Nat
  skip : Option Nat
  /-- The relation fields to embed. -/
  embed : List String

namespace Search

/-- All records, in the order of insertion. -/
def all : Search := ⟨∅, ∅, none, none, []⟩

end Search

namespace Store

def rows (s : Store) (table : String) : List Fields := s.getD table []

/-- Whether a column of a row holds a key, compared loosely. -/
def holdsKey (column : String) (key : Json) (row : Fields) : Bool :=
  (row.get? column).elim false (·.looseEq key)

/-- What a relation of a record is embedded as. -/
def related (s : Store) (r : Relation) (record : Fields) : Json :=
  let targets := s.rows r.target
  match r.kind with
  | .belongsTo =>
    ((record.get? r.foreignKey).bind fun key => targets.find? (holdsKey r.references key)).elim
      .null .obj
  | .hasMany =>
    .arr ((targets.filter (holdsKey r.foreignKey (record.getOrNull r.references))).map .obj)
  | .hasOne =>
    (targets.find? (holdsKey r.foreignKey (record.getOrNull r.references))).elim .null .obj

/-- The record with the named relations embedded; names of no relation are passed over. -/
def embed (s : Store) (e : Entity) (names : List String) (record : Fields) : Fields :=
  names.foldl
    (fun out name =>
      match (e.field? name).bind (·.relation) with
      | none => out
      | some r => out.insert name (s.related r record))
    record

/-- The first row that a filter accepts. -/
def find? (s : Store) (e : Entity) (f : Filter) : Option Fields := (s.rows e.name).find? f.accepts

/-- All rows that a filter accepts, sorted. -/
def matching (s : Store) (e : Entity) (f : Filter) (sort : Sorting) : List Fields :=
  sort.sortRecords ((s.rows e.name).filter f.accepts)

/-- The part of a list that a search asks for. -/
def window {α : Type} (skip take : Option Nat) (l : List α) : List α :=
  let rest := l.drop (skip.getD 0)
  take.elim rest rest.take

def search (s : Store) (e : Entity) (q : Search) : List Fields :=
  (window q.skip q.take (s.matching e q.filter q.sort)).map (s.embed e q.embed)

def count (s : Store) (e : Entity) (f : Option Filter) : Nat :=
  f.elim (s.rows e.name).length fun f => ((s.rows e.name).filter f.accepts).length

end Store

end EntityRest
