import EntityRest.Query.Match

/-!
Sorting records by several fields, stably, by insertion from the right end.

Values of different kinds have no order and count as equal, so the comparison of two records need not be a total
preorder. What sorting comes to is determined only on records on which it is one (`Sorting.Legal`).
-/

namespace EntityRest

/-- The order of two values; values without an order count as equal. -/
def Json.order (a b : Json) : Ordering := (a.order? b).getD .eq

def SortOrder.apply (o : SortOrder) (c : Ordering) : Ordering :=
  match o with
  | asc => c
  | desc => c.swap

namespace Sorting

/-- The first field in which two records differ decides. -/
def orderBy : List (String × SortOrder) → Fields → Fields → Ordering
  | [], _, _ => .eq
  | (field, o) :: fields, a, b =>
    (o.apply ((a.getOrNull field).order (b.getOrNull field))).then (orderBy fields a b)

def order (s : Sorting) (a b : Fields) : Ordering := orderBy s.toList a b

variable {α : Type}

/-- Inserts into a list that stands in reverse order, behind all that come after `x`. -/
def insertRev (order : α → α → Ordering) (x : α) : List α → List α
  | [] => [x]
  | y :: ys => if order x y = .lt then y :: insertRev order x ys else x :: y :: ys

/-- Sorts by inserting one element after the other. Where `order` is a total preorder on the elements, every stable
sort comes to this list. Elsewhere this is one way to sort among others: another one may come to another list, or
give up on the comparison. -/
def insertionSort (order : α → α → Ordering) (l : List α) : List α :=
  (l.foldl (fun sorted x => insertRev order x sorted) []).reverse

/-- The records in order, determined where the comparison is legal on them (`Sorting.sorts_iff`). -/
def sortRecords (s : Sorting) (records : List Fields) : List Fields :=
  insertionSort s.order records

end Sorting

end EntityRest
