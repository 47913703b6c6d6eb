import EntityRest.Data.Decimal
import EntityRest.Data.Lookup

/-!
JSON values, the documents that clients send and that records are made of.

A number keeps its kind: an integer never equals a double. Objects are key-sorted lists of fields;
`Fields.insert` keeps them sorted, so that two objects with the same fields are the same list.
-/

namespace EntityRest

/-- A JSON number: an integer, or a double where the text has a fraction or an exponent. -/
inductive Number where
  | int (n : Int)
  | float (x : Double)
deriving DecidableEq

namespace Number

def toDouble : Number → Double
  | int n => Double.ofInt n
  | float x => x

/-- Equality of the same kind: integers as integers, doubles as numbers. -/
def same : Number → Number → Bool
  | int m, int n => m == n
  | float x, float y => x.same y
  | _, _ => false

def text : Number → String
  | int n => toString n
  | float x => x.text

/-- Whether the number has no fractional part, whatever its kind. -/
def isWhole : Number → Bool
  | int _ => true
  | float x => x.isWhole

end Number

inductive Json where
  | null
  | bool (b : Bool)
  | num (n : Number)
  | str (s : String)
  | arr (items : List Json)
  | obj (fields : List (String × Json))

/-- The fields of an object, sorted by key. -/
abbrev Fields := List (String × Json)

namespace Json

instance : Inhabited Json := ⟨null⟩

mutual

/-- Strict equality: kinds must agree, and the two zeros among the doubles are equal. -/
def same : Json → Json → Bool
  | null, null => true
  | bool a, bool b => a == b
  | num a, num b => a.same b
  | str a, str b => a == b
  | arr a, arr b => sameItems a b
  | obj a, obj b => sameFields a b
  | _, _ => false

def sameItems : List Json → List Json → Bool
  | [], [] => true
  | a :: as, b :: bs => same a b && sameItems as bs
  | _, _ => false

def sameFields : List (String × Json) → List (String × Json) → Bool
  | [], [] => true
  | (k, a) :: as, (l, b) :: bs => k == l && same a b && sameFields as bs
  | _, _ => false

end

def isNull : Json → Bool
  | null => true
  | _ => false

def string? : Json → Option String
  | str s => some s
  | _ => none

def items? : Json → Option (List Json)
  | arr items => some items
  | _ => none

def fields? : Json → Option Fields
  | obj fields => some fields
  | _ => none

def int (n : Int) : Json := num (.int n)

/-- The string, or null for none. -/
def ofString? (s : Option String) : Json := s.elim null str

end Json

namespace Fields

def get? (o : Fields) (k : String) : Option Json := o.lookup k

def contains (o : Fields) (k : String) : Bool := (o.get? k).isSome

/-- Sets a field: in place if the key is there, else before the first greater key. -/
def insert : Fields → String → Json → Fields
  | [], k, v => [(k, v)]
  | (l, w) :: o, k, v =>
    if k = l then (k, v) :: o else if k < l then (k, v) :: (l, w) :: o else (l, w) :: insert o k v

def erase (o : Fields) (k : String) : Fields := o.filter fun e => e.1 ≠ k

/-- Lets the fields of the second object win over those of the first. -/
def union (o p : Fields) : Fields := p.foldl (fun o e => o.insert e.1 e.2) o

/-- The object with the given fields; of a repeated key the last one counts. -/
def ofList (l : List (String × Json)) : Fields := union [] l

/-- The value of a field, or null where there is none. -/
def getOrNull (o : Fields) (k : String) : Json := (o.get? k).getD .null

theorem get?_cons (k l : String) (v : Json) (o : Fields) :
    get? ((k, v) :: o) l = if l = k then some v else o.get? l :=
  Lookup.lookup_cons_pair k l v o

theorem get?_insert (o : Fields) (k l : String) (v : Json) :
    (insert o k v).get? l = if l = k then some v else o.get? l := by
  induction o with
  | nil => simp only [insert, get?_cons]
  | cons e o ih =>
    obtain ⟨l', w⟩ := e
    unfold insert
    split
    · next hk => subst hk; simp only [get?_cons]; split <;> simp_all
    · next hk =>
      split
      · simp only [get?_cons]
      · simp only [get?_cons, ih]
        by_cases h : l = l'
        · have : ¬ l = k := fun e => hk (e ▸ h)
          simp [h, Ne.symm hk]
        · simp [h]

end Fields

namespace Json

/-- The value of a field of an object. -/
def field? (j : Json) (k : String) : Option Json := j.fields?.bind (·.get? k)

def object (l : List (String × Json)) : Json := obj (Fields.ofList l)

end Json

end EntityRest
