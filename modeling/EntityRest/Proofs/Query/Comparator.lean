import EntityRest.Proofs.Query.Kinds

/-! # Comparisons that sorting can rely on

Sorting asks of a comparison that it is a total preorder on the records at hand (`Sorting.Legal`). The other way round
it always gives the reverse (`order_swap`), but values without an order count as equal, so a record can tie with two
others of which one comes before the other. The comparison is legal exactly if there is no such `Loop` (`legal_iff`),
and where it is legal every stable sort comes to the same list, in which the records are in order (`sorts_iff`,
`pairwise_sortRecords`). -/

namespace EntityRest

namespace Json

variable {v w : Json}

/-- The values count as equal. -/
def Even (v w : Json) : Prop := Ties Number.rounded v w ∨ Unordered v w

theorem Even.symm (h : Even v w) : Even w v := h.imp Ties.symm Unordered.symm

theorem decided_even (v w : Json) : Decided (Below Number.rounded) Even v w (v.order w) := by
  by_cases hkind : OneKind v w
  · obtain ⟨kind, hv, hw⟩ := hkind
    exact (decided_order hv hw).imp (fun _ _ => id) fun _ _ => .inl
  · cases hv : v.isNull with
    | true =>
      obtain rfl := isNull_eq_true_iff.1 hv
      cases w with
      | null => exact absurd ⟨.number, .null _, .null _⟩ hkind
      | _ => exact .lt (.null rfl)
    | false =>
      rcases oneKind_or_unordered (w := w) hv with h | rfl | h
      · exact absurd h hkind
      · rw [order, order?_null hv]; exact .gt (.null hv)
      · rw [h.order_eq]; exact .eq (.inr h)

theorem Below.order_eq_lt (h : Below Number.rounded v w) : v.order w = .lt := by
  cases h with
  | null h => cases w with
    | null => cases h
    | _ => rfl
  | num h => exact compare_lt_iff_lt.2 (Double.value_lt_value_iff.1 h)
  | str h => exact if_pos h
  | bool => rfl

theorem Below.order_eq_gt (h : Below Number.rounded w v) : v.order w = .gt := by
  cases h with
  | null h => rw [order, order?_null h]; rfl
  | num h => exact compare_gt_iff_gt.2 (Double.value_lt_value_iff.1 h)
  | str h => simp [order, order?, stringOrder, h.ne', String.lt_asymm h]
  | bool => rfl

theorem order_eq_lt_iff : v.order w = .lt ↔ Below Number.rounded v w :=
  ⟨fun h => (h ▸ decided_even v w).below_of_lt, Below.order_eq_lt⟩

theorem order_eq_gt_iff : v.order w = .gt ↔ Below Number.rounded w v :=
  ⟨fun h => (h ▸ decided_even v w).below_of_gt, Below.order_eq_gt⟩

theorem Ties.order_eq (h : Ties Number.rounded v w) : v.order w = .eq := by
  cases h with
  | null => rfl
  | num h => exact compare_eq_iff_eq.2 (Double.value_eq_value_iff.1 h)
  | str s => exact stringOrder_eq_iff.2 rfl
  | bool b => cases b <;> rfl

theorem order_eq_eq_iff : v.order w = .eq ↔ Even v w :=
  ⟨fun h => (h ▸ decided_even v w).ties_of_eq, fun h => h.elim Ties.order_eq Unordered.order_eq⟩

theorem order_swap (v w : Json) : w.order v = (v.order w).swap := by
  cases h : v.order w with
  | lt => exact order_eq_gt_iff.2 (order_eq_lt_iff.1 h)
  | gt => exact order_eq_lt_iff.2 (order_eq_gt_iff.1 h)
  | eq =>
    cases h' : w.order v with
    | eq => rfl
    | lt => rw [order_eq_gt_iff.2 (order_eq_lt_iff.1 h')] at h; cases h
    | gt => rw [order_eq_lt_iff.2 (order_eq_gt_iff.1 h')] at h; cases h

end Json

namespace SortOrder

variable {o : SortOrder} {u v w : Json}

theorem apply_swap (o : SortOrder) (c : Ordering) : o.apply c.swap = (o.apply c).swap := by cases o <;> rfl

theorem apply_order_swap (o : SortOrder) (v w : Json) : o.apply (w.order v) = (o.apply (v.order w)).swap := by
  rw [Json.order_swap v w, apply_swap]

theorem apply_eq_lt_iff : o.apply (v.order w) = .lt ↔ o.Below Number.rounded v w := by
  cases o with
  | asc => exact Json.order_eq_lt_iff
  | desc => exact Ordering.swap_eq_lt.trans Json.order_eq_gt_iff

theorem apply_eq_eq_iff : o.apply (v.order w) = .eq ↔ Json.Even v w := by
  cases o with
  | asc => exact Json.order_eq_eq_iff
  | desc => exact Ordering.swap_eq_eq.trans Json.order_eq_eq_iff

theorem Below.not_even (h : o.Below Number.rounded v w) : ¬Json.Even v w := by
  rw [← apply_eq_eq_iff (o := o), apply_eq_lt_iff.2 h]
  decide

theorem isLE_apply_iff : (o.apply (v.order w)).isLE = true ↔ ¬o.Below Number.rounded w v := by
  rw [← apply_eq_lt_iff, apply_order_swap o w v]
  generalize o.apply (w.order v) = c
  cases c <;> decide

theorem below_or_even (o : SortOrder) (v w : Json) :
    o.Below Number.rounded v w ∨ Json.Even v w ∨ o.Below Number.rounded w v := by
  have hdecided := SortOrder.decided_apply (o := o) (Json.decided_even v w)
  generalize o.apply (v.order w) = c at hdecided
  cases hdecided with
  | lt h => exact .inl h
  | eq h => exact .inr (.inl h)
  | gt h => exact .inr (.inr h)

/-- A value that stands between two others, though these stand the other way round, has no order with either. -/
theorem Below.unordered (h : o.Below Number.rounded w u) (hvu : ¬o.Below Number.rounded v u)
    (hwv : ¬o.Below Number.rounded w v) : Json.Unordered u v ∧ Json.Unordered v w := by
  constructor
  · rcases o.below_or_even u v with h' | h' | h'
    · exact absurd (h.trans h') hwv
    · exact h'.resolve_left fun hties => hwv (h.trans_ties hties)
    · exact absurd h' hvu
  · rcases o.below_or_even v w with h' | h' | h'
    · exact absurd (h'.trans h) hvu
    · exact h'.resolve_left fun hties => hvu (.ties_trans hties h)
    · exact absurd h' hwv

end SortOrder

namespace Sorting

variable {s : Sorting} {fields : List (String × SortOrder)} {a b c : Fields} {records sorted : List Fields}

theorem orderBy_swap (fields : List (String × SortOrder)) (a b : Fields) :
    orderBy fields b a = (orderBy fields a b).swap := by
  induction fields with
  | nil => rfl
  | cons f fields ih =>
    obtain ⟨field, o⟩ := f
    rw [orderBy, orderBy, ih, SortOrder.apply_order_swap, Ordering.swap_then]

theorem order_swap (s : Sorting) (a b : Fields) : s.order b a = (s.order a b).swap := orderBy_swap s.toList a b

/-- The comparison is a total preorder on the records. -/
def Legal (s : Sorting) (records : List Fields) : Prop :=
  Std.TransCmp fun a b : {record // record ∈ records} => s.order a b

/-- Compared from left to right the records `a`, `b` and `c` do not descend, and yet `c` comes before `a`: the first
field in which not all of them count as equal says so, and in that field `b` has no order with the other two. -/
inductive Loop : List (String × SortOrder) → Fields → Fields → Fields → Prop
  | here {field : String} {o : SortOrder} {fields : List (String × SortOrder)} {a b c : Fields}
      (hbelow : o.Below Number.rounded (c.getOrNull field) (a.getOrNull field))
      (hab : Json.Unordered (a.getOrNull field) (b.getOrNull field))
      (hbc : Json.Unordered (b.getOrNull field) (c.getOrNull field))
      (hle : (orderBy fields a b).isLE = true) (hle' : (orderBy fields b c).isLE = true) :
    Loop ((field, o) :: fields) a b c
  | later {field : String} {o : SortOrder} {fields : List (String × SortOrder)} {a b c : Fields}
      (hab : Json.Even (a.getOrNull field) (b.getOrNull field))
      (hbc : Json.Even (b.getOrNull field) (c.getOrNull field))
      (hca : Json.Even (c.getOrNull field) (a.getOrNull field)) (h : Loop fields a b c) :
    Loop ((field, o) :: fields) a b c

theorem orderBy_cons_eq_lt_iff {field : String} {o : SortOrder} :
    orderBy ((field, o) :: fields) a b = .lt ↔ o.Below Number.rounded (a.getOrNull field) (b.getOrNull field) ∨
      Json.Even (a.getOrNull field) (b.getOrNull field) ∧ orderBy fields a b = .lt := by
  rw [orderBy, Ordering.then_eq_lt, SortOrder.apply_eq_lt_iff, SortOrder.apply_eq_eq_iff]

theorem isLE_orderBy_cons_iff {field : String} {o : SortOrder} :
    (orderBy ((field, o) :: fields) a b).isLE = true ↔
      ¬o.Below Number.rounded (b.getOrNull field) (a.getOrNull field) ∧
        (Json.Even (a.getOrNull field) (b.getOrNull field) → (orderBy fields a b).isLE = true) := by
  rw [orderBy, ← SortOrder.isLE_apply_iff, ← SortOrder.apply_eq_eq_iff (o := o), Ordering.isLE_then_iff_or]
  generalize o.apply _ = first
  cases first <;> simp

theorem Loop.descends (h : Loop fields a b c) :
    (orderBy fields a b).isLE = true ∧ (orderBy fields b c).isLE = true ∧ orderBy fields c a = .lt := by
  induction h with
  | here hbelow hab hbc hle hle' =>
    simp only [orderBy, SortOrder.apply_eq_eq_iff.2 (.inr hab), SortOrder.apply_eq_eq_iff.2 (.inr hbc),
      SortOrder.apply_eq_lt_iff.2 hbelow]
    exact ⟨hle, hle', rfl⟩
  | later hab hbc hca _ ih =>
    simp only [orderBy, SortOrder.apply_eq_eq_iff.2 hab, SortOrder.apply_eq_eq_iff.2 hbc,
      SortOrder.apply_eq_eq_iff.2 hca]
    exact ih

/-- Where three comparisons lead back to the start and not all of them say equal, one of the records starts a loop. -/
theorem exists_loop (hab : (orderBy fields a b).isLE = true) (hbc : (orderBy fields b c).isLE = true)
    (hca : orderBy fields c a = .lt) : Loop fields a b c ∨ Loop fields b c a ∨ Loop fields c a b := by
  induction fields with
  | nil => cases hca
  | cons f fields ih =>
    obtain ⟨field, o⟩ := f
    rw [isLE_orderBy_cons_iff] at hab hbc
    rcases orderBy_cons_eq_lt_iff.1 hca with hca | ⟨hca, hlater⟩
    · obtain ⟨hab', hbc'⟩ := hca.unordered hab.1 hbc.1
      exact .inl (.here hca hab' hbc' (hab.2 (.inr hab')) (hbc.2 (.inr hbc')))
    · -- the pair that this field decides may be any of the three
      have hle : (orderBy fields c a).isLE = true := by rw [hlater]; rfl
      have hac : ¬o.Below Number.rounded (a.getOrNull field) (c.getOrNull field) := fun h => h.not_even hca.symm
      rcases o.below_or_even (a.getOrNull field) (b.getOrNull field) with h | hab' | h
      · obtain ⟨hbc', hca'⟩ := h.unordered hbc.1 hac
        exact .inr (.inl (.here h hbc' hca' (hbc.2 (.inr hbc')) hle))
      · rcases o.below_or_even (b.getOrNull field) (c.getOrNull field) with h | hbc' | h
        · obtain ⟨hca', hab''⟩ := h.unordered hac hab.1
          exact .inr (.inr (.here h hca' hab'' hle (hab.2 hab')))
        · rcases ih (hab.2 hab') (hbc.2 hbc') hlater with h | h | h
          · exact .inl (.later hab' hbc' hca h)
          · exact .inr (.inl (.later hbc' hca hab' h))
          · exact .inr (.inr (.later hca hab' hbc' h))
        · exact absurd h hbc.1
      · exact absurd h hab.1

theorem legal_of_not_loop (h : ∀ a ∈ records, ∀ b ∈ records, ∀ c ∈ records, ¬Loop s.toList a b c) :
    s.Legal records := by
  refine @Std.TransCmp.mk _ _ ⟨fun {a b} => s.order_swap b a⟩ fun {a b c} hab hbc => ?_
  by_contra hac
  have hca : s.order c a = .lt := by
    rw [order_swap, Ordering.swap_eq_lt]
    rw [Ordering.isLE_iff_ne_gt, not_not] at hac
    exact hac
  rcases exists_loop hab hbc hca with hloop | hloop | hloop
  · exact h a a.2 b b.2 c c.2 hloop
  · exact h b b.2 c c.2 a a.2 hloop
  · exact h c c.2 a a.2 b b.2 hloop

theorem Legal.isLE_trans (h : s.Legal records) (ha : a ∈ records) (hb : b ∈ records) (hc : c ∈ records)
    (hab : (s.order a b).isLE = true) (hbc : (s.order b c).isLE = true) : (s.order a c).isLE = true :=
  @Std.TransCmp.isLE_trans _ _ h ⟨a, ha⟩ ⟨b, hb⟩ ⟨c, hc⟩ hab hbc

theorem Legal.not_loop (h : s.Legal records) (ha : a ∈ records) (hb : b ∈ records) (hc : c ∈ records) :
    ¬Loop s.toList a b c := by
  intro hloop
  obtain ⟨hab, hbc, hca⟩ := hloop.descends
  have hac := h.isLE_trans ha hb hc hab hbc
  rw [order_swap s c a, show s.order c a = .lt from hca] at hac
  cases hac

/-- In fields with values of one kind nothing is without an order. -/
theorem not_loop_of_comparable (h : Comparable fields records) (ha : a ∈ records) (hb : b ∈ records) :
    ¬Loop fields a b c := by
  intro hloop
  induction hloop with
  | here _ hab _ _ _ =>
    obtain ⟨kind, hkind⟩ := h _ (.head _)
    exact hab.apart ⟨kind, hkind _ ha, hkind _ hb⟩
  | later _ _ _ _ ih => exact ih (fun f hf => h f (.tail _ hf)) ha hb

theorem legal_of_comparable (h : Comparable s.toList records) : s.Legal records :=
  legal_of_not_loop fun _ ha _ hb _ _ => not_loop_of_comparable h ha hb

/-! ### What sorting comes to -/

/-- Of two numbered records the first comes before the other, or they tie and it has the smaller number. -/
def Leads (s : Sorting) (a b : Fields × Nat) : Prop :=
  s.order a.1 b.1 = .lt ∨ s.order a.1 b.1 = .eq ∧ a.2 < b.2

/-- What a stable sort promises: the records are all there, each once, none stands behind one that it comes before,
and those that tie stand as they stood. -/
def Sorts (s : Sorting) (records sorted : List Fields) : Prop :=
  ∃ numbered : List (Fields × Nat), numbered.Perm records.zipIdx ∧ numbered.Pairwise s.Leads ∧
    sorted = numbered.map Prod.fst

theorem Leads.asymm {a b : Fields × Nat} (h : s.Leads a b) : ¬s.Leads b a := by
  unfold Leads at h ⊢
  rw [order_swap s a.1 b.1, Ordering.swap_eq_lt, Ordering.swap_eq_eq]
  rcases h with h | ⟨h, hlt⟩
  · simp [h]
  · simp [h]; omega

theorem Sorts.perm (h : s.Sorts records sorted) : sorted.Perm records := by
  obtain ⟨numbered, hperm, -, rfl⟩ := h
  have hfst := hperm.map Prod.fst
  rwa [List.zipIdx_map_fst] at hfst

theorem Sorts.pairwise (h : s.Sorts records sorted) :
    sorted.Pairwise fun a b => (s.order a b).isLE = true := by
  obtain ⟨numbered, -, hleads, rfl⟩ := h
  refine List.pairwise_map.2 (hleads.imp fun hab => ?_)
  rcases hab with hlt | ⟨heq, -⟩
  · rw [hlt]; rfl
  · rw [heq]; rfl

/-- There is only one way to sort records stably. -/
theorem Sorts.unique {sorted' : List Fields} (h : s.Sorts records sorted) (h' : s.Sorts records sorted') :
    sorted = sorted' := by
  obtain ⟨numbered, hperm, hleads, rfl⟩ := h
  obtain ⟨numbered', hperm', hleads', rfl⟩ := h'
  have heq : numbered = numbered' := List.Perm.eq_of_pairwise (fun a b _ _ hab hba => absurd hba hab.asymm)
    hleads hleads' (hperm.trans hperm'.symm)
  rw [heq]

theorem Legal.leads_trans (h : s.Legal records) {a b c : Fields × Nat} (ha : a.1 ∈ records) (hb : b.1 ∈ records)
    (hc : c.1 ∈ records) (hab : s.Leads a b) (hbc : s.Leads b c) : s.Leads a c := by
  have hle {a b : Fields × Nat} (hab : s.Leads a b) : (s.order a.1 b.1).isLE = true := by
    rcases hab with h | ⟨h, -⟩ <;> rw [h] <;> rfl
  have hac := h.isLE_trans ha hb hc (hle hab) (hle hbc)
  rcases Ordering.isLE_iff_eq_lt_or_eq_eq.1 hac with hlt | heq
  · exact .inl hlt
  · -- if the outer two tie, so do both inner pairs
    have hca : (s.order c.1 a.1).isLE = true := by rw [order_swap s a.1, heq]; rfl
    have hba := h.isLE_trans hb hc ha (hle hbc) hca
    have hcb := h.isLE_trans hc ha hb hca (hle hab)
    rw [order_swap s a.1 b.1] at hba
    rw [order_swap s b.1 c.1] at hcb
    rcases hab with hlt | ⟨-, hlt⟩
    · rw [hlt] at hba; cases hba
    · rcases hbc with hlt' | ⟨-, hlt'⟩
      · rw [hlt'] at hcb; cases hcb
      · exact .inr ⟨heq, hlt.trans hlt'⟩

theorem sorts_sortRecords (h : s.Legal records) : s.Sorts records (s.sortRecords records) := by
  have hsorted : (insertionSort (fun a b => s.order a.1 b.1) records.zipIdx).Pairwise
      fun a b => a.1 ∈ records ∧ b.1 ∈ records ∧ s.Leads a b := by
    refine pairwise_insertionSort (fun a b c hab hbc => ?_) ((pairwise_zipIdx_lt records).imp_of_mem
      fun {a b} ha hb hlt => ?_)
    · exact ⟨hab.1, hbc.2.1, h.leads_trans hab.1 hab.2.1 hbc.2.1 hab.2.2 hbc.2.2⟩
    · have ha := List.fst_mem_of_mem_zipIdx ha
      have hb := List.fst_mem_of_mem_zipIdx hb
      split
      · next hba => exact ⟨hb, ha, .inl hba⟩
      · next hba =>
        refine ⟨ha, hb, ?_⟩
        unfold Leads
        rw [order_swap s b.1 a.1]
        cases horder : s.order b.1 a.1 with
        | lt => exact absurd horder hba
        | eq => exact .inr ⟨rfl, hlt⟩
        | gt => exact .inl rfl
  refine ⟨_, insertionSort_perm _ _, hsorted.imp fun h => h.2.2, ?_⟩
  rw [← insertionSort_map, List.zipIdx_map_fst]
  rfl

/-- Where the comparison is legal, every stable sort comes to the same list. -/
theorem sorts_iff (h : s.Legal records) : s.Sorts records sorted ↔ sorted = s.sortRecords records :=
  ⟨fun hsorts => hsorts.unique (sorts_sortRecords h), fun heq => heq ▸ sorts_sortRecords h⟩

theorem pairwise_sortRecords (h : s.Legal records) :
    (s.sortRecords records).Pairwise fun a b => (s.order a b).isLE = true :=
  (sorts_sortRecords h).pairwise

/-! ### Every field can be given values that do not go together -/

theorem getOrNull_single (field : String) (v : Json) (k : String) :
    Fields.getOrNull [(field, v)] k = if k = field then v else .null := by
  rw [Fields.getOrNull, Fields.get?_cons]
  split <;> rfl

theorem orderBy_single_of_not_mem {field : String} (h : field ∉ fields.map Prod.fst) (v w : Json) :
    orderBy fields [(field, v)] [(field, w)] = .eq := by
  induction fields with
  | nil => rfl
  | cons f fields ih =>
    obtain ⟨k, o⟩ := f
    rw [List.map_cons, List.mem_cons, not_or] at h
    obtain ⟨hk, hfields⟩ := h
    rw [orderBy, getOrNull_single, getOrNull_single, if_neg (Ne.symm hk), if_neg (Ne.symm hk), ih hfields]
    cases o <;> rfl

theorem exists_not_legal (h : s.toList ≠ []) : ∃ records, ¬s.Legal records := by
  obtain ⟨⟨field, o⟩, fields, hs⟩ := List.exists_cons_of_ne_nil h
  have hnodup := s.nodup_keys
  rw [hs, List.map_cons, List.nodup_cons] at hnodup
  have hrest : ∀ v w, (orderBy fields [(field, v)] [(field, w)]).isLE = true := fun v w => by
    rw [orderBy_single_of_not_mem hnodup.1]; rfl
  have hvalue : ∀ v, Fields.getOrNull [(field, v)] field = v := fun v => by rw [getOrNull_single, if_pos rfl]
  obtain ⟨m, n, hbelow⟩ : ∃ m n, o.Below Number.rounded (.num n) (.num m) := by
    have hless : Json.Below Number.rounded (.int 1) (.int 2) := Json.order_eq_lt_iff.1 (by decide)
    cases o with
    | asc => exact ⟨.int 2, .int 1, hless⟩
    | desc => exact ⟨.int 1, .int 2, hless⟩
  refine ⟨[[(field, .num m)], [(field, .str "x")], [(field, .num n)]], fun hlegal => ?_⟩
  have hloop : Loop s.toList [(field, .num m)] [(field, .str "x")] [(field, .num n)] := by
    rw [hs]
    refine .here ?_ ?_ ?_ (hrest _ _) (hrest _ _)
    · rw [hvalue, hvalue]; exact hbelow
    · rw [hvalue, hvalue]; exact Json.unordered_num_str m "x"
    · rw [hvalue, hvalue]; exact (Json.unordered_num_str n "x").symm
  exact hlegal.not_loop (by simp) (by simp) (by simp) hloop

/-- The comparison turned round gives the reverse. It is a total preorder exactly on the records among which there is
no loop, so wherever the fields have values of one kind, and on all records only if there is nothing to sort by. Where
it is one, sorting brings the records in order. -/
theorem legal_iff (s : Sorting) :
    (∀ a b, s.order b a = (s.order a b).swap) ∧ ((∀ records, s.Legal records) ↔ s.toList = []) ∧
    ∀ records,
      (s.Legal records ↔ ∀ a ∈ records, ∀ b ∈ records, ∀ c ∈ records, ¬Loop s.toList a b c) ∧
      (Comparable s.toList records → s.Legal records) ∧
      (s.Legal records → (s.sortRecords records).Perm records ∧
        (s.sortRecords records).Pairwise fun a b => (s.order a b).isLE = true) := by
  refine ⟨order_swap s, ⟨fun h => ?_, fun h records => ?_⟩, fun records => ⟨⟨?_, legal_of_not_loop⟩, ?_, ?_⟩⟩
  · by_contra hne
    obtain ⟨records, hnot⟩ := exists_not_legal hne
    exact hnot (h records)
  · refine legal_of_not_loop fun a _ b _ c _ hloop => ?_
    rw [h] at hloop
    cases hloop
  · exact fun h a ha b hb c hc => h.not_loop ha hb hc
  · exact legal_of_comparable
  · exact fun h => ⟨insertionSort_perm _ _, pairwise_sortRecords h⟩

/-- Ranks of different kinds: 2 comes after 1, but neither has an order with the text between them. -/
def mixedRanks : List Fields := [[("rank", .int 2)], [("rank", .str "x")], [("rank", .int 1)]]

/-- No comparison of neighbours says that the ranks are out of order, so they stay as they are. -/
theorem legal_iff_mixedRanks :
    let s : Sorting := OrdMap.ofList [("rank", .asc)]
    ¬s.Legal mixedRanks ∧ s.sortRecords mixedRanks = mixedRanks ∧
      s.order [("rank", .int 1)] [("rank", .int 2)] = .lt ∧
      (s.sortRecords [[("rank", .int 2)], [("rank", .int 1)]]).Pairwise fun a b => (s.order a b).isLE = true := by
  intro s
  obtain ⟨-, -, hlegal⟩ := legal_iff s
  have hranks : Comparable s.toList [[("rank", .int 2)], [("rank", .int 1)]] := by
    refine fun f hf => ⟨.number, fun record hrecord => ?_⟩
    rw [List.mem_singleton.1 hf]
    rcases List.mem_cons.1 hrecord with rfl | hrecord
    · exact .number (.int 2)
    · rw [List.mem_singleton.1 hrecord]; exact .number (.int 1)
  refine ⟨fun h => ?_, rfl, rfl, ((hlegal _).2.2 ((hlegal _).2.1 hranks)).2⟩
  refine (hlegal mixedRanks).1.1 h _ (.head _) _ (.tail _ (.head _)) _ (.tail _ (.tail _ (.head _))) ?_
  exact .here (Json.order_eq_lt_iff.1 (by decide)) (Json.unordered_num_str (.int 2) "x")
    (Json.unordered_num_str (.int 1) "x").symm rfl rfl

end Sorting

end EntityRest
