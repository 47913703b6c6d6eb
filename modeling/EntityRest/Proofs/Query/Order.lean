import EntityRest.Proofs.Data.Double
import EntityRest.Proofs.Query.Sort
import Mathlib.Data.String.Basic

/-! # The order of records

What it means that one record comes before another is said without the comparisons of the code: by `Below` and `Ties`
on values, and from these lexicographically by `Precedes` and `Ties` on records. Both are relative to a size of numbers.
On values of one kind the comparisons decide these relations for the rounded size (`orderBy_cases`), and as rounding
keeps the order, they decide them for the exact size where no two different numbers are rounded to one. -/

namespace EntityRest

/-- What a comparison of `a` with `b` decides. -/
inductive Decided {α : Type} (below ties : α → α → Prop) (a b : α) : Ordering → Prop
  | lt (h : below a b) : Decided below ties a b .lt
  | eq (h : ties a b) : Decided below ties a b .eq
  | gt (h : below b a) : Decided below ties a b .gt

namespace Decided

variable {α β : Type} {below ties : α → α → Prop} {a b : α} {o : Ordering}

theorem imp {below' ties' : β → β → Prop} {f : α → β} (h : Decided below ties a b o)
    (hbelow : ∀ a b, below a b → below' (f a) (f b)) (hties : ∀ a b, ties a b → ties' (f a) (f b)) :
    Decided below' ties' (f a) (f b) o := by
  cases h with
  | lt h => exact .lt (hbelow _ _ h)
  | eq h => exact .eq (hties _ _ h)
  | gt h => exact .gt (hbelow _ _ h)

theorem swap (h : Decided below ties a b o) : Decided (flip below) ties a b o.swap := by
  cases h with
  | lt h => exact .gt h
  | eq h => exact .eq h
  | gt h => exact .lt h

theorem below_of_lt (h : Decided below ties a b .lt) : below a b := by cases h; assumption

theorem ties_of_eq (h : Decided below ties a b .eq) : ties a b := by cases h; assumption

theorem below_of_gt (h : Decided below ties a b .gt) : below b a := by cases h; assumption

theorem compare [LinearOrder α] (a b : α) : Decided (· < ·) (· = ·) a b (compare a b) := by
  cases h : Ord.compare a b with
  | lt => exact .lt (compare_lt_iff_lt.1 h)
  | eq => exact .eq (compare_eq_iff_eq.1 h)
  | gt => exact .gt (compare_gt_iff_gt.1 h)

end Decided

namespace Json

variable {size : Number → ℚ} {u v w : Json}

/-- The one value is lower than the other one. -/
inductive Below (size : Number → ℚ) : Json → Json → Prop
  | null {v : Json} (h : v.isNull = false) : Below size null v
  | num {m n : Number} (h : size m < size n) : Below size (num m) (num n)
  | str {s t : String} (h : s < t) : Below size (str s) (str t)
  | bool : Below size (bool false) (bool true)

inductive Ties (size : Number → ℚ) : Json → Json → Prop
  | null : Ties size null null
  | num {m n : Number} (h : size m = size n) : Ties size (num m) (num n)
  | str (s : String) : Ties size (str s) (str s)
  | bool (b : Bool) : Ties size (bool b) (bool b)

theorem Ties.symm (h : Ties size v w) : Ties size w v := by
  cases h with
  | null => exact .null
  | num h => exact .num h.symm
  | str s => exact .str s
  | bool b => exact .bool b

theorem Ties.trans (h : Ties size u v) (h' : Ties size v w) : Ties size u w := by
  cases h with
  | num h => cases h' with | num h' => exact .num (h.trans h')
  | _ => exact h'

theorem Ties.isNull_eq (h : Ties size v w) : v.isNull = w.isNull := by cases h <;> rfl

theorem Below.trans (h : Below size u v) (h' : Below size v w) : Below size u w := by
  cases h' with
  | null => cases h; contradiction
  | num h' =>
    cases h with
    | null => exact .null rfl
    | num h => exact .num (h.trans h')
  | str h' =>
    cases h with
    | null => exact .null rfl
    | str h => exact .str (String.lt_trans h h')
  | bool =>
    cases h with
    | null => exact .null rfl

theorem Below.trans_ties (h : Below size u v) (h' : Ties size v w) : Below size u w := by
  cases h with
  | null h => exact .null (h'.isNull_eq ▸ h)
  | num h => cases h' with | num h' => exact .num (h.trans_eq h')
  | str h => cases h'; exact .str h
  | bool => cases h'; exact .bool

theorem Ties.trans_below (h : Ties size u v) (h' : Below size v w) : Below size u w := by
  cases h' with
  | null h' => cases h; exact .null h'
  | num h' => cases h with | num h => exact .num (h.trans_lt h')
  | str h' => cases h; exact .str h'
  | bool => cases h; exact .bool

/-- The kinds of values that have an order. -/
inductive Kind
  | number
  | string
  | boolean

/-- Which values are of a kind; null is of each. -/
inductive Kind.Admits : Kind → Json → Prop
  | null (kind : Kind) : Kind.Admits kind null
  | number (n : Number) : Kind.Admits number (num n)
  | string (s : String) : Kind.Admits string (str s)
  | boolean (b : Bool) : Kind.Admits boolean (bool b)

theorem decided_stringOrder (s t : String) : Decided (· < ·) (· = ·) s t (stringOrder s t) := by
  unfold stringOrder
  split
  · next hlt => exact .lt hlt
  · split
    · next heq => exact .eq heq
    · next hnot hne => exact .gt ((lt_trichotomy s t).resolve_left hnot |>.resolve_left hne)

theorem decided_numbers (m n : Number) :
    Decided (Below Number.rounded) (Ties Number.rounded) (num m) (num n) (m.toDouble.order n.toDouble) := by
  have hlt : ∀ m n : Number, m.toDouble.key < n.toDouble.key → Below Number.rounded (num m) (num n) :=
    fun m n h => .num (Double.value_lt_value_iff.2 h)
  have hkeys := Decided.compare m.toDouble.key n.toDouble.key
  unfold Double.order
  generalize compare m.toDouble.key n.toDouble.key = o at hkeys ⊢
  cases hkeys with
  | lt h => exact .lt (hlt m n h)
  | eq h => exact .eq (.num (Double.value_eq_value_iff.2 h))
  | gt h => exact .gt (hlt n m h)

/-- Values of one kind are compared as the sizes of their doubles say. -/
theorem decided_order {kind : Kind} (hv : kind.Admits v) (hw : kind.Admits w) :
    Decided (Below Number.rounded) (Ties Number.rounded) v w (v.order w) := by
  cases hv with
  | null =>
    cases hw with
    | null => exact .eq .null
    | _ => exact .lt (.null rfl)
  | number m =>
    cases hw with
    | null => exact .gt (.null rfl)
    | number n => exact decided_numbers m n
  | string s =>
    cases hw with
    | null => exact .gt (.null rfl)
    | string t => exact (decided_stringOrder s t).imp (fun _ _ => .str) fun s _ h => h ▸ .str s
  | boolean a =>
    cases hw with
    | null => exact .gt (.null rfl)
    | boolean b =>
      cases a <;> cases b
      exacts [.eq (.bool false), .lt .bool, .gt .bool, .eq (.bool true)]

/-- In exact size the order is the same, and there are no more ties. -/
theorem Below.exact (h : Below Number.rounded v w) : Below Number.value v w := by
  cases h with
  | null h => exact .null h
  | num h => exact .num (lt_of_not_ge fun hle => absurd (Number.rounded_le_rounded hle) (not_le.2 h))
  | str h => exact .str h
  | bool => exact .bool

theorem Ties.exact (h : Ties Number.rounded v w)
    (hseparated : ∀ m n, v = Json.num m → w = Json.num n → m.rounded = n.rounded → m.value = n.value) :
    Ties Number.value v w := by
  cases h with
  | null => exact .null
  | num h => exact .num (hseparated _ _ rfl rfl h)
  | str s => exact .str s
  | bool b => exact .bool b

end Json

/-- That a value stands before another one, if it is to be sorted this way. -/
def SortOrder.Below (size : Number → ℚ) : SortOrder → Json → Json → Prop
  | asc => Json.Below size
  | desc => flip (Json.Below size)

namespace SortOrder

variable {size : Number → ℚ} {o : SortOrder} {u v w : Json}

theorem Below.trans (h : o.Below size u v) (h' : o.Below size v w) : o.Below size u w := by
  cases o with
  | asc => exact Json.Below.trans h h'
  | desc => exact Json.Below.trans h' h

theorem Below.trans_ties (h : o.Below size u v) (h' : Json.Ties size v w) : o.Below size u w := by
  cases o with
  | asc => exact Json.Below.trans_ties h h'
  | desc => exact h'.symm.trans_below h

theorem Below.ties_trans (h : Json.Ties size u v) (h' : o.Below size v w) : o.Below size u w := by
  cases o with
  | asc => exact h.trans_below h'
  | desc => exact Json.Below.trans_ties h' h.symm

theorem Below.exact (h : o.Below Number.rounded v w) : o.Below Number.value v w := by
  cases o with
  | asc => exact Json.Below.exact h
  | desc => exact Json.Below.exact h

theorem decided_apply {ties : Json → Json → Prop} {c : Ordering} (h : Decided (Json.Below size) ties v w c) :
    Decided (o.Below size) ties v w (o.apply c) := by
  cases o with
  | asc => exact h
  | desc => exact h.swap

end SortOrder

namespace Sorting

variable {size : Number → ℚ} {fields : List (String × SortOrder)} {a b c : Fields}

def Ties (size : Number → ℚ) (fields : List (String × SortOrder)) (a b : Fields) : Prop :=
  ∀ f ∈ fields, Json.Ties size (a.getOrNull f.1) (b.getOrNull f.1)

/-- The first field in which two records do not tie puts the one before the other. -/
inductive Precedes (size : Number → ℚ) : List (String × SortOrder) → Fields → Fields → Prop
  | here {field : String} {o : SortOrder} {fields : List (String × SortOrder)} {a b : Fields}
      (h : o.Below size (a.getOrNull field) (b.getOrNull field)) : Precedes size ((field, o) :: fields) a b
  | later {field : String} {o : SortOrder} {fields : List (String × SortOrder)} {a b : Fields}
      (hties : Json.Ties size (a.getOrNull field) (b.getOrNull field)) (h : Precedes size fields a b) :
    Precedes size ((field, o) :: fields) a b

theorem Ties.trans (h : Ties size fields a b) (h' : Ties size fields b c) : Ties size fields a c :=
  fun f hf => (h f hf).trans (h' f hf)

theorem Precedes.trans_ties (h : Precedes size fields a b) (h' : Ties size fields b c) :
    Precedes size fields a c := by
  induction h with
  | here h => exact .here (h.trans_ties (h' _ (.head _)))
  | later hties _ ih => exact .later (hties.trans (h' _ (.head _))) (ih fun f hf => h' f (.tail _ hf))

theorem Ties.trans_precedes (h : Ties size fields a b) (h' : Precedes size fields b c) :
    Precedes size fields a c := by
  induction h' with
  | here h' => exact .here (.ties_trans (h _ (.head _)) h')
  | later hties _ ih => exact .later ((h _ (.head _)).trans hties) (ih fun f hf => h f (.tail _ hf))

theorem Precedes.trans (h : Precedes size fields a b) (h' : Precedes size fields b c) :
    Precedes size fields a c := by
  induction h with
  | here h =>
    cases h' with
    | here h' => exact .here (h.trans h')
    | later hties _ => exact .here (h.trans_ties hties)
  | later hties _ ih =>
    cases h' with
    | here h' => exact .here (.ties_trans hties h')
    | later hties' h' => exact .later (hties.trans hties') (ih h')

/-- Before another record comes one that precedes it, and of two that tie the one with the smaller number. -/
def Before (size : Number → ℚ) (fields : List (String × SortOrder)) (a b : Fields × Nat) : Prop :=
  Precedes size fields a.1 b.1 ∨ Ties size fields a.1 b.1 ∧ a.2 < b.2

theorem Before.trans {a b c : Fields × Nat} (h : Before size fields a b) (h' : Before size fields b c) :
    Before size fields a c := by
  rcases h with h | ⟨h, hlt⟩ <;> rcases h' with h' | ⟨h', hlt'⟩
  · exact .inl (h.trans h')
  · exact .inl (h.trans_ties h')
  · exact .inl (h.trans_precedes h')
  · exact .inr ⟨h.trans h', hlt.trans hlt'⟩

/-- In each of the fields all records have values of one kind. -/
def Comparable (fields : List (String × SortOrder)) (records : List Fields) : Prop :=
  ∀ f ∈ fields, ∃ kind : Json.Kind, ∀ record ∈ records, kind.Admits (record.getOrNull f.1)

theorem decided_orderBy {records : List Fields} (h : Comparable fields records) (ha : a ∈ records) (hb : b ∈ records) :
    Decided (Precedes Number.rounded fields) (Ties Number.rounded fields) a b (orderBy fields a b) := by
  induction fields with
  | nil => exact .eq fun f hf => absurd hf List.not_mem_nil
  | cons f fields ih =>
    obtain ⟨field, o⟩ := f
    obtain ⟨⟨kind, hkind⟩, hrest⟩ := List.forall_mem_cons.1 h
    have hfirst := SortOrder.decided_apply (o := o) (Json.decided_order (hkind a ha) (hkind b hb))
    have hlater := ih hrest
    unfold orderBy
    generalize o.apply _ = first at hfirst ⊢
    generalize orderBy fields a b = later at hlater ⊢
    cases hfirst with
    | lt h => exact .lt (.here h)
    | gt h => exact .gt (.here h)
    | eq hties =>
      cases hlater with
      | lt h => exact .lt (.later hties h)
      | gt h => exact .gt (.later hties.symm h)
      | eq h => exact .eq (List.forall_mem_cons.2 ⟨hties, h⟩)

/-- The sorted records are numbered from the first to the last before they are brought in order. -/
theorem exists_numbered {s : Sorting} {records : List Fields} (h : Comparable s.toList records) :
    ∃ numbered : List (Fields × Nat), numbered.Perm records.zipIdx ∧
      numbered.Pairwise (Before Number.rounded s.toList) ∧ s.sortRecords records = numbered.map Prod.fst := by
  refine ⟨insertionSort (fun a b => s.order a.1 b.1) records.zipIdx, insertionSort_perm _ _,
    pairwise_insertionSort (R := Before Number.rounded s.toList) (fun _ _ _ => Before.trans) ?_, ?_⟩
  · refine (pairwise_zipIdx_lt records).imp_of_mem fun {a b} ha hb hlt => ?_
    have hdecided := decided_orderBy h (List.fst_mem_of_mem_zipIdx hb) (List.fst_mem_of_mem_zipIdx ha)
    unfold order
    generalize orderBy s.toList b.1 a.1 = o at hdecided ⊢
    cases hdecided with
    | lt h => exact .inl h
    | eq h => exact .inr ⟨fun f hf => (h f hf).symm, hlt⟩
    | gt h => exact .inl h
  · rw [← insertionSort_map, List.zipIdx_map_fst]
    rfl

/-! ### Exact numbers -/

/-- No two different numbers in one of the fields are rounded to one double. -/
def Separated (fields : List (String × SortOrder)) (records : List Fields) : Prop :=
  ∀ f ∈ fields, ∀ a ∈ records, ∀ b ∈ records, ∀ m n, a.getOrNull f.1 = .num m → b.getOrNull f.1 = .num n →
    m.rounded = n.rounded → m.value = n.value

/-- Doubles and integers of 53 bits are told apart. -/
theorem separated_of_natAbs_le {records : List Fields}
    (h : ∀ f ∈ fields, ∀ record ∈ records, ∀ k : ℤ, record.getOrNull f.1 = .num (.int k) → k.natAbs ≤ 2 ^ 53) :
    Separated fields records := by
  intro f hf a ha b hb m n hm hn heq
  have hexact : ∀ record ∈ records, ∀ n, record.getOrNull f.1 = .num n → n.rounded = n.value :=
    fun record hrecord n hn => Number.rounded_eq_value fun k hk => h f hf record hrecord k (hk ▸ hn)
  rw [← hexact a ha m hm, ← hexact b hb n hn, heq]

section Exact

variable {records : List Fields} (hseparated : Separated fields records) (ha : a ∈ records) (hb : b ∈ records)
include hseparated ha hb

theorem Ties.exact (h : Ties Number.rounded fields a b) : Ties Number.value fields a b :=
  fun f hf => (h f hf).exact (hseparated f hf a ha b hb)

theorem Precedes.exact (h : Precedes Number.rounded fields a b) : Precedes Number.value fields a b := by
  induction h with
  | here h => exact .here h.exact
  | later hties _ ih =>
    obtain ⟨hfirst, hrest⟩ := List.forall_mem_cons.1 hseparated
    exact .later (hties.exact (hfirst _ ha _ hb)) (ih hrest ha hb)

end Exact

theorem pairwise_exact {records : List Fields} {numbered : List (Fields × Nat)} (h : Separated fields records)
    (hmem : ∀ a ∈ numbered, a.1 ∈ records) (hsorted : numbered.Pairwise (Before Number.rounded fields)) :
    numbered.Pairwise (Before Number.value fields) :=
  hsorted.imp_of_mem fun ha hb hbefore => hbefore.imp (Precedes.exact h (hmem _ ha) (hmem _ hb))
    fun hties => ⟨Ties.exact h (hmem _ ha) (hmem _ hb) hties.1, hties.2⟩

end Sorting

end EntityRest
