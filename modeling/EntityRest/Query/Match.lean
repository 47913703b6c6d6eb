import EntityRest.Query.Filter

/-!
When a record matches a filter.

Values are compared loosely: numbers by the doubles they stand for, a number and a string by the
text of the number. Only values of one kind have an order, and null comes before everything else.
-/

namespace EntityRest

namespace Json

/-- Equality of keys and values that come from different sources. -/
def looseEq : Json → Json → Bool
  | num x, num y => x.toDouble.same y.toDouble
  | str s, num n => s == n.text
  | num n, str s => s == n.text
  | a, b => a.same b

/-- The order of two strings by code points. -/
def stringOrder (s t : String) : Ordering := if s < t then .lt else if s = t then .eq else .gt

/-- The order of two values, if they have one. -/
def order? : Json → Json → Option Ordering
  | num x, num y => some (x.toDouble.order y.toDouble)
  | str s, str t => some (stringOrder s t)
  | bool a, bool b => some (compare a.toNat b.toNat)
  | null, null => some .eq
  | null, _ => some .lt
  | _, null => some .gt
  | _, _ => none

end Json

/-- Whether the first text occurs in the second. -/
def isInfix (needle : List Char) : List Char → Bool
  | [] => needle.isEmpty
  | c :: cs => needle.isPrefixOf (c :: cs) || isInfix needle cs

/-- A test on two strings; it fails on any other value. -/
def textTest (p : List Char → List Char → Bool) : Json → Json → Bool
  | .str value, .str part => p part.toList value.toList
  | _, _ => false

namespace FilterOp

/-- Whether an order test holds; null passes none of them. -/
def orderTest (p : Ordering → Bool) (actual expected : Json) : Bool :=
  !actual.isNull && (actual.order? expected).elim false p

/-- Whether the stored value passes the operator with the expected one. -/
def holds (op : FilterOp) (actual expected : Json) : Bool :=
  match op with
  | equals => actual.looseEq expected
  | not => !actual.looseEq expected
  | gt => orderTest (· == .gt) actual expected
  | gte => orderTest (· != .lt) actual expected
  | lt => orderTest (· == .lt) actual expected
  | lte => orderTest (· != .gt) actual expected
  | contains => textTest isInfix actual expected
  | startsWith => textTest List.isPrefixOf actual expected
  | endsWith => textTest List.isSuffixOf actual expected
  | isIn => expected.items?.elim false (·.any actual.looseEq)
  | notIn => expected.items?.elim true fun items => !items.any actual.looseEq

end FilterOp

/-- Whether a value meets a condition. -/
def Condition.holds (actual : Json) : Condition → Bool
  | literal v => actual.looseEq v
  | ops m => m.toList.all fun (op, v) => op.holds actual v

/-- Whether a record meets all conditions; a missing field counts as null. -/
def Filter.accepts (f : Filter) (record : Fields) : Bool :=
  f.toList.all fun (field, c) => c.holds (record.getOrNull field)

end EntityRest
