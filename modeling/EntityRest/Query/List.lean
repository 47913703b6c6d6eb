import EntityRest.Query.Filter
import EntityRest.Text.Integer

/-!
The query of a list request: filter, sorting, page and embedded relations, read from parameters.

Parameters are `filter[field]=value`, `filter[field][op]=value`, `sort`, `limit`, `offset`, `page`
and `include`; what is malformed or unknown is left out of account. Reading never fails.
-/

namespace EntityRest

/-- What a list request asks for. -/
structure ListQuery where
  filter : Filter
  sort : Sorting
  take : Nat
  skip : Nat
  /-- The names of the relations to embed, without repetition. -/
  embed : List String

namespace ListQuery

/-- The number of records on a page when the request gives none. -/
def defaultTake : Nat := 20

/-- The greatest number of records on a page. -/
def maxTake : Nat := 100

/-- The greatest number of records that can be skipped. -/
def maxSkip : Nat := 0xFFFFFFFFFFFFFFFF

/-- Two digit sequences with a point between them. -/
def isPointNumber (cs : List Char) : Bool :=
  match Text.splitOn '.' cs with
  | [whole, fraction] =>
    !whole.isEmpty && !fraction.isEmpty && whole.all Char.isDigit && fraction.all Char.isDigit
  | _ => false

/-- The double of digits with a point among them, unless it is beyond the largest one. -/
def pointNumber? (negative : Bool) (cs : List Char) : Option Double :=
  if isPointNumber cs then
    let fraction := (cs.dropWhile (· ≠ '.')).drop 1
    Double.ofDecimal? negative (Text.natOfDigits (cs.filter (· ≠ '.'))) (-fraction.length)
  else none

/-- The number that a text is written as, with a minus sign at most before its digits. -/
def number? (cs : List Char) : Option Number :=
  let (negative, digits) := match cs with
    | '-' :: ds => (true, ds)
    | ds => (false, ds)
  match Text.natOfChars? digits with
  | some n =>
    let n : Int := if negative then -n else n
    if Text.inInt64 n then some (.int n) else none
  | none => (pointNumber? negative digits).map Number.float

/--
The value of a parameter: a boolean, null, a number where the text is one in plain notation, and the
text itself otherwise.
-/
def coerce (raw : String) : Json :=
  if raw = "true" then .bool true
  else if raw = "false" then .bool false
  else if raw = "null" then .null
  else (number? raw.toList).elim (.str raw) .num

/-- The value that an operator compares with; a list is given with commas. -/
def operand (op : FilterOp) (raw : String) : Json :=
  if op.takesList then .arr ((Text.listItems raw).map coerce) else coerce raw

/-- A text in brackets at the front, not empty and without a closing bracket in it. -/
def bracketed? : List Char → Option (String × List Char)
  | '[' :: cs =>
    let name := cs.takeWhile (· ≠ ']')
    match cs.dropWhile (· ≠ ']') with
    | ']' :: rest => if name.isEmpty then none else some (String.ofList name, rest)
    | _ => none
  | _ => none

/-- The field and the operator that a parameter name of the form `filter[field][op]` holds. -/
def filterKey? (key : String) : Option (String × Option String) :=
  let cs := key.toList
  if "filter".toList.isPrefixOf cs then
    match bracketed? (cs.drop 6) with
    | none => none
    | some (field, []) => some (field, none)
    | some (field, rest) =>
      match bracketed? rest with
      | some (op, []) => some (field, some op)
      | _ => none
  else none

/-- Adds an operator to the condition of a field; a plain value there is replaced. -/
def addOperator (c : Option Condition) (op : FilterOp) (v : Json) : Condition :=
  match c with
  | some (.ops m) => .ops (m.insert op v)
  | _ => .ops (OrdMap.ofList [(op, v)])

/-- Takes one parameter into the filter, if it belongs there. -/
def addParameter (f : Filter) (key raw : String) : Filter :=
  match filterKey? key with
  | none => f
  | some (field, none) => f.insert field (.literal (coerce raw))
  | some (field, some name) =>
    match FilterOp.ofName? name with
    | none => f
    | some op => f.insert field (addOperator (f.get? field) op (operand op raw))

def filterOf (params : OrdMap String String) : Filter :=
  params.toList.foldl (fun f (key, raw) => addParameter f key raw) ∅

/-- A field to sort by, descending after a minus sign; nothing if no name is left. -/
def sortItem? (item : String) : Option (String × SortOrder) :=
  let (field, order) := match item.toList with
    | '-' :: cs => (cs, SortOrder.desc)
    | '+' :: cs => (cs, SortOrder.asc)
    | cs => (cs, SortOrder.asc)
  if field.isEmpty then none else some (String.ofList field, order)

def sortOf (raw : String) : Sorting := OrdMap.ofList ((Text.listItems raw).filterMap sortItem?)

/-- The first of two parameters that is there. -/
def either? (params : OrdMap String String) (key synonym : String) : Option String :=
  params.get? key <|> params.get? synonym

/-- A page holds between one record and the greatest number of them. -/
def clampTake (n : Int) : Nat := (max 1 (min n maxTake)).toNat

def takeOf (params : OrdMap String String) : Nat :=
  ((either? params "limit" "take").bind Text.int64?).elim defaultTake clampTake

/-- The number of records before a page, counted from page 1. -/
def skipOfPage (page : Int) (take : Nat) : Nat := min (((max page 1).toNat - 1) * take) maxSkip

/-- A page number wins over an offset. -/
def skipOf (params : OrdMap String String) (take : Nat) : Nat :=
  match (params.get? "page").bind Text.int64? with
  | some page => skipOfPage page take
  | none => ((either? params "offset" "skip").bind Text.int64?).elim 0 Int.toNat

def embedOf (params : OrdMap String String) : List String :=
  ((params.get? "include").elim [] Text.listItems).foldl
    (fun names name => if name ∈ names then names else names ++ [name]) []

/-- The query that request parameters stand for. -/
def ofParams (params : OrdMap String String) : ListQuery :=
  let take := takeOf params
  { filter := filterOf params
    sort := (either? params "sort" "orderBy").elim ∅ sortOf
    take := take
    skip := skipOf params take
    embed := embedOf params }

end ListQuery

end EntityRest
