import EntityRest.Proofs.Query.Comparator
import EntityRest.Proofs.Store.Embedding
import EntityRest.Proofs.Store.References

/-! # Integers as keys

Integers are compared by the doubles nearest to them. Two of them count as equal exactly if they are rounded to one
double (`Number.Alias`), and otherwise they have the order of integers (`order_int`). An integer of less than 53 bits
has no alias but itself (`alias_iff_eq`). This is what filters, foreign keys, relations and sorting see of columns of
integers (`integers_up_to_alias`). -/

namespace EntityRest

namespace Number

variable {a b : ℤ}

/-- The integers are rounded to one double. -/
def Alias (a b : ℤ) : Prop := (int a).rounded = (int b).rounded

instance : Decidable (Alias a b) := decidable_of_iff _ Double.value_eq_value_iff.symm

theorem Alias.refl (a : ℤ) : Alias a a := rfl

theorem Alias.symm (h : Alias a b) : Alias b a := Eq.symm h

theorem rounded_int_le (h : a ≤ b) : (int a).rounded ≤ (int b).rounded := rounded_le_rounded (Int.cast_le.2 h)

theorem rounded_int (h : a.natAbs ≤ 2 ^ 53) : (int a).rounded = a :=
  rounded_eq_value fun _ hk => by cases hk; exact h

theorem rounded_int_lt_iff : (int a).rounded < (int b).rounded ↔ a < b ∧ ¬Alias a b := by
  constructor
  · intro h
    exact ⟨lt_of_not_ge fun hle => absurd (rounded_int_le hle) (not_le.2 h), h.ne⟩
  · rintro ⟨hlt, hne⟩
    exact lt_of_le_of_ne (rounded_int_le hlt.le) hne

/-- An integer of more bits may be rounded, but not to less than the largest integer of 53 bits is. -/
theorem alias_iff_eq (h : a.natAbs < 2 ^ 53) : Alias a b ↔ a = b := by
  refine ⟨fun halias => ?_, fun heq => heq ▸ Alias.refl a⟩
  have ha : (int b).rounded = a := halias.symm.trans (rounded_int h.le)
  by_cases hb : b.natAbs ≤ 2 ^ 53
  · exact_mod_cast ha.symm.trans (rounded_int hb)
  · exfalso
    rcases Int.natAbs_eq b with hpos | hneg
    · have hle : (int (2 ^ 53)).rounded ≤ (int b).rounded := rounded_int_le (by omega)
      rw [ha, rounded_int (by decide), Int.cast_le] at hle
      omega
    · have hle : (int b).rounded ≤ (int (-(2 ^ 53))).rounded := rounded_int_le (by omega)
      rw [ha, rounded_int (by decide), Int.cast_le] at hle
      omega

/-- The doubles next to an integer of 64 bits are 2048 apart at most. -/
theorem abs_rounded_int_sub_le (h : a.natAbs ≤ 2 ^ 64) : |(int a).rounded - a| ≤ 1024 := by
  obtain ⟨y, hy⟩ := Double.exists_value_eq (n := (a + 1024) / 2048) (by omega)
  have hnear : |(a + 1024) / 2048 * 2 ^ 11 - a| ≤ 1024 := abs_le.2 ⟨by omega, by omega⟩
  calc |(int a).rounded - a| ≤ |y.value - a| := abs_rounded_sub_le (int a) y
    _ ≤ 1024 := by rw [hy]; exact_mod_cast hnear

theorem Alias.abs_sub_le (h : Alias a b) (ha : a.natAbs ≤ 2 ^ 64) (hb : b.natAbs ≤ 2 ^ 64) : |a - b| ≤ 2048 := by
  have hleft := abs_le.1 (abs_rounded_int_sub_le ha)
  have hright := abs_le.1 (abs_rounded_int_sub_le hb)
  rw [show (int a).rounded = (int b).rounded from h] at hleft
  have hle : |(a - b : ℚ)| ≤ 2048 := abs_le.2 ⟨by linarith [hleft.2, hright.1], by linarith [hleft.1, hright.2]⟩
  exact_mod_cast hle

end Number

open Number (Alias)

namespace Json

variable {a b : ℤ}

theorem looseEq_int_iff : (int a).looseEq (int b) = true ↔ Alias a b :=
  beq_iff_eq.trans Double.value_eq_value_iff.symm

theorem below_int_iff : Below Number.rounded (int a) (int b) ↔ a < b ∧ ¬Alias a b := by
  rw [← Number.rounded_int_lt_iff]
  exact ⟨fun h => by cases h; assumption, .num⟩

theorem order_int (a b : ℤ) : (int a).order (int b) = if Alias a b then .eq else compare a b := by
  split
  · next h => exact order_eq_eq_iff.2 (.inl (.num h))
  · next h =>
    rcases lt_trichotomy a b with hlt | rfl | hgt
    · rw [order_eq_lt_iff.2 (below_int_iff.2 ⟨hlt, h⟩), compare_lt_iff_lt.2 hlt]
    · exact absurd (.refl a) h
    · rw [order_eq_gt_iff.2 (below_int_iff.2 ⟨hgt, fun h' => h h'.symm⟩), compare_gt_iff_gt.2 hgt]

theorem order?_int (a b : ℤ) : (int a).order? (int b) = some (if Alias a b then .eq else compare a b) := by
  have hkind : (int a).order? (int b) = some ((int a).order (int b)) := order?_of_oneKind (oneKind_num _ _)
  rw [hkind, order_int]

/-- Two integers are compared as they are just if they are no aliases, or one integer. -/
theorem exact_int_iff :
    ((int a).looseEq (int b) = true ↔ a = b) ∧ (int a).order? (int b) = some (compare a b) ↔
      (Alias a b → a = b) := by
  constructor
  · rintro ⟨hequal, -⟩ halias
    exact hequal.1 (looseEq_int_iff.2 halias)
  · intro hself
    refine ⟨looseEq_int_iff.trans ⟨hself, fun heq => heq ▸ Alias.refl a⟩, ?_⟩
    rw [order?_int]
    split
    · next halias => rw [compare_eq_iff_eq.2 (hself halias)]
    · rfl

end Json

/-! ### Columns of integers -/

namespace Fields

variable {column : String} {row : Fields} {p : Json → Bool} {q : ℤ → Prop}

/-- The integer that a row holds in a column. -/
def int? (column : String) (row : Fields) : Option ℤ :=
  match row.get? column with
  | some (.num (.int a)) => some a
  | _ => none

/-- The row holds an integer of which `q` is true in the column. -/
def HoldsInt (column : String) (q : ℤ → Prop) (row : Fields) : Prop := ∃ a ∈ row.int? column, q a

instance [DecidablePred q] : Decidable (HoldsInt column q row) := inferInstanceAs (Decidable (∃ a ∈ _, q a))

/-- The row holds an integer, null or nothing in the column. -/
def IsIntIn (column : String) (row : Fields) : Prop := ∀ v, row.get? column = some v → v = .null ∨ ∃ a : ℤ, v = .int a

theorem getOrNull_of_int? {a : ℤ} (h : row.int? column = some a) : row.getOrNull column = .int a := by
  unfold int? at h
  unfold getOrNull
  split at h
  · next heq => cases h; rw [heq]; rfl
  · cases h

theorem IsIntIn.cases (h : IsIntIn column row) :
    (∃ a, row.int? column = some a ∧ row.getOrNull column = .int a) ∨
      row.int? column = none ∧ row.getOrNull column = .null := by
  unfold int? getOrNull
  cases hv : row.get? column with
  | none => exact .inr ⟨rfl, rfl⟩
  | some v =>
    rcases h v hv with rfl | ⟨a, rfl⟩
    · exact .inr ⟨rfl, rfl⟩
    · exact .inl ⟨a, rfl, rfl⟩

/-- What is true of the value of a column, but not of null, is true of an integer in it. -/
theorem IsIntIn.getOrNull_iff (h : IsIntIn column row) (hnull : p .null = false)
    (hint : ∀ a : ℤ, p (.int a) = true ↔ q a) : p (row.getOrNull column) = true ↔ HoldsInt column q row := by
  unfold HoldsInt
  rcases h.cases with ⟨a, hsome, ha⟩ | ⟨hnone, hvalue⟩
  · simp [hsome, ha, hint]
  · simp [hnone, hvalue, hnull]

theorem IsIntIn.elim_iff (h : IsIntIn column row) (hnull : p .null = false)
    (hint : ∀ a : ℤ, p (.int a) = true ↔ q a) :
    (row.get? column).elim false p = true ↔ HoldsInt column q row := by
  rw [← h.getOrNull_iff hnull hint, getOrNull]
  cases row.get? column with
  | none => rw [Option.elim_none, Option.getD_none, hnull]
  | some v => rfl

end Fields

namespace FilterOp

variable {a b : ℤ} {bs : List ℤ}

theorem orderTest_int (p : Ordering → Bool) (a b : ℤ) :
    orderTest p (.int a) (.int b) = p (if Alias a b then .eq else compare a b) := by
  have hkind : (Json.int a).OneKind (.int b) := Json.oneKind_num _ _
  rw [orderTest_of_oneKind p rfl hkind, Json.order_int]

theorem gt_int_iff : gt.holds (.int a) (.int b) = true ↔ b < a ∧ ¬Alias a b := by
  rw [holds, orderTest_int]
  split
  · next h => simp [h]
  · next h => simp [h, compare_gt_iff_gt]

theorem lt_int_iff : lt.holds (.int a) (.int b) = true ↔ a < b ∧ ¬Alias a b := by
  rw [holds, orderTest_int]
  split
  · next h => simp [h]
  · next h => simp [h, compare_lt_iff_lt]

/-- On integers, at least means more or equal. -/
theorem gte_int_iff : gte.holds (.int a) (.int b) = true ↔ b < a ∨ Alias a b := by
  rw [holds, orderTest_int]
  split
  · next h => simp [h]
  · next h =>
    have hne : a ≠ b := fun heq => h (heq ▸ .refl a)
    simp [h, compare_lt_iff_lt, le_iff_lt_or_eq, hne.symm]

theorem lte_int_iff : lte.holds (.int a) (.int b) = true ↔ a < b ∨ Alias a b := by
  rw [holds, orderTest_int]
  split
  · next h => simp [h]
  · next h =>
    have hne : a ≠ b := fun heq => h (heq ▸ .refl a)
    simp [h, compare_gt_iff_gt, le_iff_lt_or_eq, hne]

theorem isIn_null (bs : List ℤ) : isIn.holds .null (.arr (bs.map .int)) = false := by
  change (bs.map Json.int).any Json.null.looseEq = false
  rw [List.any_map, List.any_eq_false]
  exact fun b _ => Bool.eq_false_iff.1 (Json.looseEq_null rfl)

theorem isIn_int_iff : isIn.holds (.int a) (.arr (bs.map .int)) = true ↔ ∃ b ∈ bs, Alias a b := by
  change (bs.map Json.int).any (Json.int a).looseEq = true ↔ _
  simp [Json.looseEq_int_iff]

end FilterOp

/-- What the conditions with an integer, or with several, make of the value that a row has in a column. -/
structure Fields.MeetsUpToAlias (column : String) (row : Fields) (b : ℤ) (bs : List ℤ) : Prop where
  literal : Condition.holds (row.getOrNull column) (.literal (.int b)) = true ↔ row.HoldsInt column (Alias · b)
  equals : FilterOp.equals.holds (row.getOrNull column) (.int b) = true ↔ row.HoldsInt column (Alias · b)
  not : FilterOp.not.holds (row.getOrNull column) (.int b) = true ↔ ¬row.HoldsInt column (Alias · b)
  gt : FilterOp.gt.holds (row.getOrNull column) (.int b) = true ↔ row.HoldsInt column fun a => b < a ∧ ¬Alias a b
  gte : FilterOp.gte.holds (row.getOrNull column) (.int b) = true ↔ row.HoldsInt column fun a => b < a ∨ Alias a b
  lt : FilterOp.lt.holds (row.getOrNull column) (.int b) = true ↔ row.HoldsInt column fun a => a < b ∧ ¬Alias a b
  lte : FilterOp.lte.holds (row.getOrNull column) (.int b) = true ↔ row.HoldsInt column fun a => a < b ∨ Alias a b
  isIn : FilterOp.isIn.holds (row.getOrNull column) (.arr (bs.map .int)) = true ↔
    row.HoldsInt column fun a => ∃ b ∈ bs, Alias a b
  notIn : FilterOp.notIn.holds (row.getOrNull column) (.arr (bs.map .int)) = true ↔
    ¬row.HoldsInt column fun a => ∃ b ∈ bs, Alias a b

theorem Fields.IsIntIn.meetsUpToAlias {column : String} {row : Fields} (h : row.IsIntIn column) (b : ℤ)
    (bs : List ℤ) : row.MeetsUpToAlias column b bs := by
  have hequals : (row.getOrNull column).looseEq (.int b) = true ↔ row.HoldsInt column (Alias · b) :=
    h.getOrNull_iff (p := (·.looseEq (.int b))) (Json.looseEq_null rfl) fun _ => Json.looseEq_int_iff
  have hrange : ∀ {op : FilterOp} {q : ℤ → Prop}, op.holds .null (.int b) = false →
      (∀ a : ℤ, op.holds (.int a) (.int b) = true ↔ q a) →
      (op.holds (row.getOrNull column) (.int b) = true ↔ row.HoldsInt column q) :=
    fun hnull hint => h.getOrNull_iff (p := fun v => FilterOp.holds _ v (.int b)) hnull hint
  have hin : FilterOp.isIn.holds (row.getOrNull column) (.arr (bs.map .int)) = true ↔
      row.HoldsInt column fun a => ∃ b ∈ bs, Alias a b :=
    h.getOrNull_iff (p := fun v => FilterOp.isIn.holds v (.arr (bs.map .int))) (FilterOp.isIn_null bs) fun _ =>
      FilterOp.isIn_int_iff
  refine ⟨hequals, hequals, ?_, hrange rfl fun _ => FilterOp.gt_int_iff, hrange rfl fun _ => FilterOp.gte_int_iff,
    hrange rfl fun _ => FilterOp.lt_int_iff, hrange rfl fun _ => FilterOp.lte_int_iff, hin, ?_⟩
  · rw [← hequals, Bool.not_eq_true, ← Bool.not_eq_true']
    rfl
  · rw [← hin, Bool.not_eq_true, ← Bool.not_eq_true']
    rfl

/-! ### Columns of integers in the store -/

namespace Store

variable {s : Store} {e : Entity} {r : Relation} {record row : Fields} {column : String} {b : ℤ}

theorem holdsKey_int_iff (h : row.IsIntIn column) :
    holdsKey column (.int b) row = true ↔ row.HoldsInt column (Alias · b) :=
  h.elim_iff (Json.looseEq_null rfl) fun _ => Json.looseEq_int_iff

theorem answered_int_iff (h : ∀ target ∈ s.rows r.target, target.IsIntIn r.references) :
    s.Answered r (.int b) ↔ ∃ target ∈ s.rows r.target, target.HoldsInt r.references (Alias · b) :=
  exists_congr fun target => and_congr_right fun htarget => holdsKey_int_iff (h target htarget)

theorem get?_embed_int {names : List String} {name : String} (hname : included? e names name = some r)
    (hkey : (r.link record).2 = some (.int b)) (hrows : ∀ row ∈ s.rows r.target, row.IsIntIn (r.link record).1) :
    (s.embed e names record).get? name =
      some (r.embedded ((s.rows r.target).filter fun row => row.HoldsInt (r.link record).1 (Alias · b))) := by
  have hanswering : s.answering r record =
      (s.rows r.target).filter fun row => row.HoldsInt (r.link record).1 (Alias · b) :=
    List.filter_congr fun row hrow => by
      rw [hkey, Option.elim_some, Bool.eq_iff_iff, decide_eq_true_iff]
      exact holdsKey_int_iff (hrows row hrow)
  rw [get?_embed_of_included hname, hanswering]

end Store

namespace Sorting

variable {s : Sorting} {records : List Fields}

/-- In a field that two records have integers in, and before which they tie, these integers stand in order. -/
def OrderedInts (fields : List (String × SortOrder)) (x y : Fields) : Prop :=
  ∀ before column o after, fields = before ++ (column, o) :: after → Ties Number.rounded before x y →
    ∀ a ∈ x.int? column, ∀ b ∈ y.int? column, Alias a b ∨ o.apply (compare a b) = .lt

theorem orderedInts_of_isLE {fields : List (String × SortOrder)} {x y : Fields}
    (h : (orderBy fields x y).isLE = true) : OrderedInts fields x y := by
  intro before
  induction before generalizing fields with
  | nil =>
    rintro column o after rfl - a ha b hb
    have hle := (isLE_orderBy_cons_iff.1 h).1
    rw [← SortOrder.isLE_apply_iff, Fields.getOrNull_of_int? ha, Fields.getOrNull_of_int? hb, Json.order_int] at hle
    by_cases halias : Alias a b
    · exact .inl halias
    · have hne : compare a b ≠ .eq := fun heq => halias (compare_eq_iff_eq.1 heq ▸ .refl a)
      rw [if_neg halias] at hle
      right
      generalize compare a b = c at hle hne
      cases o <;> cases c <;> first | rfl | contradiction
  | cons f before ih =>
    rintro column o after rfl hties
    obtain ⟨hfirst, hbefore⟩ := List.forall_mem_cons.1 hties
    exact ih ((isLE_orderBy_cons_iff.1 h).2 (.inl hfirst)) column o after rfl hbefore

theorem pairwise_orderedInts (h : Comparable s.toList records) :
    (s.sortRecords records).Pairwise (OrderedInts s.toList) :=
  (pairwise_sortRecords (legal_of_comparable h)).imp orderedInts_of_isLE

end Sorting

/-- Integers are equal if they are aliases, and otherwise have their own order, so an integer is compared exactly with
all others just if it has no alias among them. Filters, the check of foreign keys, included relations and sorting see
columns of integers in this way. -/
theorem integers_up_to_alias (b : ℤ) :
    (∀ a : ℤ,
      ((Json.int a).looseEq (.int b) = true ↔ Alias a b) ∧
      (Json.int a).order? (.int b) = some (if Alias a b then .eq else compare a b) ∧
      (((Json.int a).looseEq (.int b) = true ↔ a = b) ∧ (Json.int a).order? (.int b) = some (compare a b) ↔
        (Alias a b → a = b)) ∧
      (a.natAbs < 2 ^ 53 → (Alias a b ↔ a = b)) ∧
      (a.natAbs ≤ 2 ^ 64 → b.natAbs ≤ 2 ^ 64 → Alias a b → |a - b| ≤ 2048)) ∧
    (∀ (column : String) (row : Fields), row.IsIntIn column → ∀ bs, row.MeetsUpToAlias column b bs) ∧
    (∀ (s : Store) (e : Entity) (row : Fields),
      s.danglingKey? e row = none ↔ ∀ r key, Store.Refers e row r key → s.Answered r key) ∧
    (∀ (s : Store) (r : Relation), (∀ target ∈ s.rows r.target, target.IsIntIn r.references) →
      (s.Answered r (.int b) ↔ ∃ target ∈ s.rows r.target, target.HoldsInt r.references (Alias · b))) ∧
    (∀ (s : Store) (e : Entity) (names : List String) (name : String) (r : Relation) (record : Fields),
      Store.included? e names name = some r → (r.link record).2 = some (.int b) →
      (∀ row ∈ s.rows r.target, row.IsIntIn (r.link record).1) →
      (s.embed e names record).get? name =
        some (r.embedded ((s.rows r.target).filter fun row => row.HoldsInt (r.link record).1 (Alias · b)))) ∧
    ∀ (s : Sorting) (records : List Fields), Sorting.Comparable s.toList records →
      (s.sortRecords records).Perm records ∧ (s.sortRecords records).Pairwise (Sorting.OrderedInts s.toList) := by
  refine ⟨fun a => ⟨Json.looseEq_int_iff, Json.order?_int a b, Json.exact_int_iff, Number.alias_iff_eq, ?_⟩,
    ?_, ?_, ?_, ?_, ?_⟩
  · exact fun ha hb h => h.abs_sub_le ha hb
  · exact fun column row h bs => h.meetsUpToAlias b bs
  · exact fun s e row => Store.danglingKey?_eq_none_iff
  · exact fun s r h => Store.answered_int_iff h
  · exact fun s e names name r record hname hkey hrows => Store.get?_embed_int hname hkey hrows
  · exact fun s records h => ⟨Sorting.insertionSort_perm _ _, Sorting.pairwise_orderedInts h⟩

/-! ### A post by nobody -/

/-- The writer of a post, by the id. -/
def writtenBy : Relation := ⟨.belongsTo, "user", "authorId", "id", none⟩

def article : Entity :=
  { Entity.placeholder "article" with
    fields := OrdMap.ofList [("author", { FieldDef.ofType .string with relation := some writtenBy })] }

def largeId : Fields := [("id", .int 9007199254740993)]

def smallId : Fields := [("id", .int 7)]

/-- The key is by one less than the id of the only user. -/
def misattributed : Fields := [("authorId", .int 9007199254740992)]

def users : Store := OrdMap.ofList [("user", [largeId])]

theorem isIntIn_single (column : String) (a : ℤ) : Fields.IsIntIn column [(column, .int a)] := by
  intro v hv
  rw [Fields.get?_cons, if_pos rfl] at hv
  cases hv
  exact .inr ⟨a, rfl⟩

/-- A key of 54 bits is answered by the row whose id is greater by one; that row is embedded, and found by the key. -/
theorem integers_up_to_alias_misattributed :
    let byId : Sorting := OrdMap.ofList [("id", .desc)]
    Alias 9007199254740993 9007199254740992 ∧ ¬Alias 7 8 ∧
      FilterOp.gte.holds (largeId.getOrNull "id") (.int 9007199254740992) = true ∧
      FilterOp.gt.holds (largeId.getOrNull "id") (.int 9007199254740992) ≠ true ∧
      users.danglingKey? article misattributed = none ∧
      (users.embed article ["author"] misattributed).get? "author" = some (.obj largeId) ∧
      (byId.sortRecords [smallId, largeId]).Pairwise (Sorting.OrderedInts byId.toList) := by
  intro byId
  obtain ⟨-, hconditions, hkeys, hanswered, hincludes, hsorted⟩ := integers_up_to_alias 9007199254740992
  have hlarge : largeId.IsIntIn "id" := isIntIn_single _ _
  have halias : Alias 9007199254740993 9007199254740992 := by decide
  have husers : ∀ row ∈ users.rows "user", row.IsIntIn "id" := List.forall_mem_singleton.2 hlarge
  have hmeets := hconditions "id" largeId hlarge []
  refine ⟨halias, fun h => ?_, hmeets.gte.2 ⟨_, rfl, .inr halias⟩, fun h => ?_, (hkeys _ _ _).2 fun r key h => ?_,
    ?_, ?_⟩
  · exact absurd ((((integers_up_to_alias 8).1 7).2.2.2.1 (by decide)).1 h) (by decide)
  · obtain ⟨a, ha, -, hnot⟩ := hmeets.gt.1 h
    cases ha
    exact hnot halias
  · obtain rfl : r = writtenBy := List.mem_singleton.1 h.mem
    cases h.get?_key
    exact (hanswered users writtenBy husers).2 ⟨largeId, .head _, _, rfl, halias⟩
  · exact hincludes users article ["author"] "author" writtenBy misattributed rfl rfl husers
  · refine (hsorted byId [smallId, largeId] fun f hf => ⟨.number, ?_⟩).2
    rw [List.mem_singleton.1 hf]
    exact List.forall_mem_cons.2 ⟨.number (.int 7), List.forall_mem_singleton.2 (.number (.int 9007199254740993))⟩

end EntityRest
