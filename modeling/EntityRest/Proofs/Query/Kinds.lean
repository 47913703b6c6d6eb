import EntityRest.Proofs.Query.Equality
import EntityRest.Proofs.Query.Order

/-! # Values with an order

Two values have an order if they are of one kind, and there `looseEq` is a tie in that order
(`looseEq_iff_order`). Elsewhere only a number and its text, or two lists or objects, can be equal
(`looseEq_iff_equalUnordered`). So the range operators agree with equality everywhere but on these pairs
(`holds_range`). -/

namespace EntityRest

namespace Json

variable {v w : Json}

/-- Both values are numbers, strings or booleans; null goes with each of these. -/
def OneKind (v w : Json) : Prop := ∃ kind : Kind, kind.Admits v ∧ kind.Admits w

/-- Neither of the values comes before the other, and they do not tie either. -/
structure Unordered (v w : Json) : Prop where
  left : v.isNull = false
  right : w.isNull = false
  apart : ¬OneKind v w

theorem oneKind_bool (a b : Bool) : OneKind (bool a) (bool b) := ⟨.boolean, .boolean a, .boolean b⟩

theorem oneKind_num (m n : Number) : OneKind (num m) (num n) := ⟨.number, .number m, .number n⟩

theorem oneKind_str (s t : String) : OneKind (str s) (str t) := ⟨.string, .string s, .string t⟩

theorem OneKind.symm (h : OneKind v w) : OneKind w v := by
  obtain ⟨kind, hv, hw⟩ := h
  exact ⟨kind, hw, hv⟩

theorem Unordered.symm (h : Unordered v w) : Unordered w v := ⟨h.right, h.left, fun hkind => h.apart hkind.symm⟩

theorem unordered_num_str (n : Number) (s : String) : Unordered (num n) (str s) := by
  refine ⟨rfl, rfl, ?_⟩
  rintro ⟨kind, hn, hs⟩
  cases hn
  cases hs

theorem order?_of_oneKind (h : OneKind v w) : v.order? w = some (v.order w) := by
  obtain ⟨kind, hv, hw⟩ := h
  cases hv <;> cases hw <;> rfl

theorem Unordered.order?_eq_none (h : Unordered v w) : v.order? w = none := by
  obtain ⟨hv, hw, hkind⟩ := h
  cases v with
  | null => cases hv
  | bool a => cases w with
    | null => cases hw
    | bool b => exact absurd (oneKind_bool a b) hkind
    | _ => rfl
  | num m => cases w with
    | null => cases hw
    | num n => exact absurd (oneKind_num m n) hkind
    | _ => rfl
  | str s => cases w with
    | null => cases hw
    | str t => exact absurd (oneKind_str s t) hkind
    | _ => rfl
  | _ => cases w with
    | null => cases hw
    | _ => rfl

theorem Unordered.order_eq (h : Unordered v w) : v.order w = .eq := by rw [order, h.order?_eq_none]; rfl

theorem order?_null (hv : v.isNull = false) : v.order? null = some .gt := by
  cases v with
  | null => cases hv
  | _ => rfl

theorem oneKind_or_unordered (hv : v.isNull = false) : OneKind v w ∨ w = null ∨ Unordered v w := by
  by_cases hkind : OneKind v w
  · exact .inl hkind
  · cases w with
    | null => exact .inr (.inl rfl)
    | _ => exact .inr (.inr ⟨hv, rfl, hkind⟩)

/-! ### Equality beside order -/

theorem stringOrder_eq_iff {s t : String} : stringOrder s t = .eq ↔ s = t := by
  refine ⟨fun h => (h ▸ decided_stringOrder s t).ties_of_eq, fun h => ?_⟩
  rw [h, stringOrder, if_neg (lt_irrefl t), if_pos rfl]

theorem looseEq_iff_order (h : OneKind v w) : v.looseEq w = true ↔ v.order w = .eq := by
  obtain ⟨kind, hv, hw⟩ := h
  cases hv with
  | null => cases hw <;> simp [looseEq, same, order, order?]
  | number m =>
    cases hw with
    | null => simp [looseEq, same, order, order?]
    | number n => exact beq_iff_eq.trans compare_eq_iff_eq.symm
  | string s =>
    cases hw with
    | null => simp [looseEq, same, order, order?]
    | string t => exact beq_iff_eq.trans stringOrder_eq_iff.symm
  | boolean a =>
    cases hw with
    | null => simp [looseEq, same, order, order?]
    | boolean b => cases a <;> cases b <;> decide

/-- Values that are equal and have no order: a number and its text, and lists or objects. -/
inductive EqualUnordered : Json → Json → Prop
  | text (n : Number) : EqualUnordered (num n) (str n.text)
  | ofText (n : Number) : EqualUnordered (str n.text) (num n)
  | arr {items items' : List Json} (h : sameItems items items' = true) : EqualUnordered (arr items) (arr items')
  | obj {fields fields' : Fields} (h : sameFields fields fields' = true) : EqualUnordered (obj fields) (obj fields')

theorem EqualUnordered.unordered (h : EqualUnordered v w) : Unordered v w := by
  refine ⟨by cases h <;> rfl, by cases h <;> rfl, ?_⟩
  rintro ⟨kind, hv, hw⟩
  cases h <;> cases hv <;> cases hw

theorem EqualUnordered.looseEq (h : EqualUnordered v w) : v.looseEq w = true := by
  cases h with
  | text n => exact beq_self_eq_true _
  | ofText n => exact beq_self_eq_true _
  | arr h => exact h
  | obj h => exact h

theorem looseEq_iff_equalUnordered (h : Unordered v w) : v.looseEq w = true ↔ EqualUnordered v w := by
  refine ⟨fun heq => ?_, EqualUnordered.looseEq⟩
  obtain ⟨hv, hw, hkind⟩ := h
  cases v with
  | null => cases hv
  | bool a => cases w with
    | bool b => exact absurd (oneKind_bool a b) hkind
    | _ => cases heq
  | num m => cases w with
    | num n => exact absurd (oneKind_num m n) hkind
    | str t => rw [beq_iff_eq.1 heq]; exact .text m
    | _ => cases heq
  | str s => cases w with
    | num n => rw [beq_iff_eq.1 heq]; exact .ofText n
    | str t => exact absurd (oneKind_str s t) hkind
    | _ => cases heq
  | arr items => cases w with
    | arr items' => exact .arr heq
    | _ => cases heq
  | obj fields => cases w with
    | obj fields' => exact .obj heq
    | _ => cases heq

end Json

namespace FilterOp

variable {a e : Json}

theorem orderTest_eq (p : Ordering → Bool) (ha : a.isNull = false) : orderTest p a e = (a.order? e).elim false p := by
  rw [orderTest, ha]; rfl

theorem orderTest_of_oneKind (p : Ordering → Bool) (ha : a.isNull = false) (h : a.OneKind e) :
    orderTest p a e = p (a.order e) := by
  rw [orderTest_eq p ha, Json.order?_of_oneKind h]; rfl

theorem orderTest_null (p : Ordering → Bool) (ha : a.isNull = false) : orderTest p a .null = p .gt := by
  rw [orderTest_eq p ha, Json.order?_null ha]; rfl

theorem orderTest_of_unordered (p : Ordering → Bool) (h : a.Unordered e) : orderTest p a e = false := by
  rw [orderTest_eq p h.left, h.order?_eq_none]; rfl

/-- The operators for "at least" and "at most" hold where the strict ones or equality do, but for a number and its
text and for equal lists and objects, of which equality alone holds. Of the strict operators and equality one holds at
most. -/
theorem holds_range (a e : Json) (ha : a.isNull = false) :
    (¬a.EqualUnordered e →
      (gte.holds a e = true ↔ gt.holds a e = true ∨ equals.holds a e = true) ∧
        (lte.holds a e = true ↔ lt.holds a e = true ∨ equals.holds a e = true)) ∧
    (a.EqualUnordered e → equals.holds a e = true ∧
      gt.holds a e = false ∧ gte.holds a e = false ∧ lt.holds a e = false ∧ lte.holds a e = false) ∧
    ¬(gt.holds a e = true ∧ equals.holds a e = true) ∧ ¬(gt.holds a e = true ∧ lt.holds a e = true) ∧
    ¬(equals.holds a e = true ∧ lt.holds a e = true) := by
  simp only [holds]
  rcases Json.oneKind_or_unordered (w := e) ha with hkind | rfl | hun
  · have hne : ¬a.EqualUnordered e := fun h => h.unordered.apart hkind
    have heq := Json.looseEq_iff_order hkind
    simp only [orderTest_of_oneKind _ ha hkind, heq, hne]
    cases a.order e <;> decide
  · have hne : ¬a.EqualUnordered .null := fun h => by cases h
    simp only [orderTest_null _ ha, Json.looseEq_null_right ha, hne]
    decide
  · have heq := Json.looseEq_iff_equalUnordered hun
    simp only [orderTest_of_unordered _ hun, heq]
    simp

/-- The text "5" is equal to the number 5 but not at least 5, while 7 is more than 5 and so at least 5. -/
theorem holds_range_fives :
    (equals.holds (.str "5") (.int 5) = true ∧ gte.holds (.str "5") (.int 5) = false) ∧
      (gte.holds (.int 7) (.int 5) = true ∧ equals.holds (.int 7) (.int 5) = false) := by
  obtain ⟨-, htext, -⟩ := holds_range (.str "5") (.int 5) rfl
  obtain ⟨hnum, -, hgtEq, -, -⟩ := holds_range (.int 7) (.int 5) rfl
  have hfive := htext (.ofText (.int 5))
  have hgt : gt.holds (.int 7) (.int 5) = true := by decide
  have hne : ¬(Json.int 7).EqualUnordered (.int 5) := fun h => by cases h
  exact ⟨⟨hfive.1, hfive.2.2.1⟩, (hnum hne).1.2 (.inl hgt), Bool.eq_false_iff.2 fun heq => hgtEq ⟨hgt, heq⟩⟩

/-- A row that holds the text of a number is equal to the number, and the range operator that includes equality
does not hold of it. -/
theorem text_not_atLeast_number :
    ¬∀ a e : Json, a.isNull = false → (gte.holds a e = true ↔ gt.holds a e = true ∨ equals.holds a e = true) := by
  intro h
  have hgte : gte.holds (.str "5") (.int 5) = true := (h (.str "5") (.int 5) rfl).2 (.inr (by decide))
  exact absurd hgte (by decide)

end FilterOp

end EntityRest
