import EntityRest.Data.OrdMap
import EntityRest.Json.Basic

/-!
Filters on records: conditions on fields, all of which must hold.
-/

namespace EntityRest

inductive FilterOp where
  | equals
  | not
  | gt
  | gte
  | lt
  | lte
  | contains
  | startsWith
  | endsWith
  | isIn
  | notIn
deriving DecidableEq

namespace FilterOp

def all : List FilterOp :=
  [equals, not, gt, gte, lt, lte, contains, startsWith, endsWith, isIn, notIn]

/-- The names of an operator in a query, the first of which is the one that is shown. -/
def names : FilterOp → List String
  | equals => ["equals", "eq"]
  | not => ["not", "ne"]
  | gt => ["gt"]
  | gte => ["gte"]
  | lt => ["lt"]
  | lte => ["lte"]
  | contains => ["contains"]
  | startsWith => ["startsWith"]
  | endsWith => ["endsWith"]
  | isIn => ["in"]
  | notIn => ["notIn"]

def name (op : FilterOp) : String := op.names.headD ""

def ofName? (s : String) : Option FilterOp := all.find? (·.names.contains s)

/-- Whether the operator compares with a list of values. -/
def takesList (op : FilterOp) : Bool := op = isIn || op = notIn

end FilterOp

/-- A condition on one field. -/
inductive Condition where
  /-- The value equals the given one. -/
  | literal (v : Json)
  /-- All operators hold. -/
  | ops (m : OrdMap FilterOp Json)

/-- Conditions by field; all must hold. -/
abbrev Filter := OrdMap String Condition

/-- The filter that selects a record by its id. -/
def Filter.ofId (id : String) : Filter := OrdMap.ofList [("id", .literal (.str id))]

inductive SortOrder where
  | asc
  | desc
deriving DecidableEq

namespace SortOrder

def name : SortOrder → String
  | asc => "asc"
  | desc => "desc"

def ofName? (s : String) : Option SortOrder := [asc, desc].find? (·.name == s)

end SortOrder

/-- The fields to sort by, the first one first. -/
abbrev Sorting := OrdMap String SortOrder

end EntityRest
