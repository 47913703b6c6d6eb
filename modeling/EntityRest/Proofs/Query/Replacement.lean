import EntityRest.Proofs.Query.FilterParameter
import EntityRest.Proofs.Query.Tests

/-! # Parameters that replace each other

A field has one condition, a plain value or a set of operators, so a parameter for a field can take the
place of an earlier one. The filter of a query makes the tests of the parameters that are still in force at
the end, and no others (`makes_filterOf`); so a row has to pass each of these alone, and a parameter that
replaces nothing takes rows away only (`accepts_iff_inForce`). -/

namespace EntityRest.ListQuery

/-- The field and the operator that a parameter is for, if its name is one that is read. -/
def slot? (key : String) : Option (String × Option FilterOp) :=
  match filterKey? key with
  | none => none
  | some (field, none) => some (field, none)
  | some (field, some name) => (FilterOp.ofName? name).map fun op => (field, some op)

def valueOf (op : Option FilterOp) (raw : String) : Json := op.elim (coerce raw) fun op => operand op raw

/-- The test that a parameter asks for. -/
def test? (key raw : String) : Option Test :=
  (slot? key).map fun slot => ⟨slot.1, slot.2, valueOf slot.2 raw⟩

/-- A test takes the place of an earlier one of its field, unless the two are by different operators. -/
def Supersedes (later earlier : String × Option FilterOp) : Prop :=
  later.1 = earlier.1 ∧ (later.2 = none ∨ earlier.2 = none ∨ later.2 = earlier.2)

def Replaces (later earlier : String) : Prop :=
  ∃ slot slot', slot? later = some slot ∧ slot? earlier = some slot' ∧ Supersedes slot slot'

/-- No later parameter takes the place of this one. -/
def InForce (params : List (String × String)) (e : String × String) : Prop :=
  ∃ before after, params = before ++ e :: after ∧ ∀ later ∈ after, ¬Replaces later.1 e.1

/-! ### One parameter -/

def addTest (f : Filter) (t : Test) : Filter :=
  f.insert t.field <| t.op.elim (.literal t.value) fun op => addOperator (f.get? t.field) op t.value

theorem addParameter_eq (f : Filter) (key raw : String) :
    addParameter f key raw = (test? key raw).elim f (addTest f) := by
  unfold addParameter test? slot?
  rcases filterKey? key with _ | ⟨field, _ | name⟩
  · rfl
  · rfl
  · dsimp only
    cases FilterOp.ofName? name <;> rfl

theorem asks_insert {m : OrdMap FilterOp Json} {op : FilterOp} {v w : Json} {o : Option FilterOp} :
    (Condition.ops (m.insert op v)).Asks o w ↔
      o = some op ∧ w = v ∨ (Condition.ops m).Asks o w ∧ o ≠ some op := by
  rw [Condition.asks_ops, Condition.asks_ops]
  constructor
  · rintro ⟨op', rfl, h⟩
    rw [OrdMap.get?_insert] at h
    split at h
    · next heq => cases h; exact .inl ⟨by rw [heq], rfl⟩
    · next hne => exact .inr ⟨⟨op', rfl, h⟩, fun heq => hne (Option.some.inj heq)⟩
  · rintro (⟨rfl, rfl⟩ | ⟨⟨op', rfl, h⟩, hne⟩)
    · exact ⟨op, rfl, by rw [OrdMap.get?_insert, if_pos rfl]⟩
    · have hop : op' ≠ op := fun heq => hne (congrArg some heq)
      exact ⟨op', rfl, by rw [OrdMap.get?_insert, if_neg hop, h]⟩

theorem asks_addOperator {c : Option Condition} {op : FilterOp} {v w : Json} {o : Option FilterOp} :
    (addOperator c op v).Asks o w ↔
      o = some op ∧ w = v ∨ ∃ c', c = some c' ∧ c'.Asks o w ∧ o ≠ none ∧ o ≠ some op := by
  have hsingle : (Condition.ops (OrdMap.ofList [(op, v)])).Asks o w ↔ o = some op ∧ w = v := by
    have hempty : ¬(Condition.ops ∅).Asks o w := by
      rw [Condition.asks_ops]
      rintro ⟨op', -, h⟩
      cases h
    exact asks_insert.trans (or_iff_left fun h => hempty h.1)
  cases c with
  | none => simpa [addOperator] using hsingle
  | some c =>
    cases c with
    | literal u =>
      -- the plain value is forgotten
      refine hsingle.trans (or_iff_left ?_).symm
      rintro ⟨c', hc, hasks, hne, -⟩
      cases hc
      exact hne (Condition.asks_literal.1 hasks).1
    | ops m =>
      have hsome : (Condition.ops m).Asks o w → o ≠ none := fun h hnone => by
        obtain ⟨op', heq, -⟩ := Condition.asks_ops.1 h
        cases hnone.symm.trans heq
      rw [addOperator, asks_insert]
      simp only [Option.some.injEq, exists_eq_left']
      exact or_congr_right ⟨fun h => ⟨h.1, hsome h.1, h.2⟩, fun h => ⟨h.1, h.2.2⟩⟩

theorem makes_addTest {f : Filter} {t u : Test} :
    Filter.Makes (addTest f t) u ↔
      u = t ∨ f.Makes u ∧ ¬Supersedes (t.field, t.op) (u.field, u.op) := by
  obtain ⟨field, op, v⟩ := t
  obtain ⟨field', o, w⟩ := u
  unfold Filter.Makes addTest Supersedes
  dsimp only
  rw [OrdMap.get?_insert]
  by_cases hfield : field' = field
  · subst hfield
    rw [if_pos rfl]
    -- a plain value leaves nothing of the old condition, an operator leaves the other operators
    cases op with
    | none =>
      dsimp only [Option.elim]
      constructor
      · rintro ⟨c, hc, hasks⟩
        cases hc; cases hasks
        exact .inl rfl
      · rintro (h | ⟨-, h⟩)
        · cases h; exact ⟨_, rfl, .literal v⟩
        · exact absurd ⟨rfl, .inl rfl⟩ h
    | some op =>
      dsimp only [Option.elim]
      simp only [Option.some.injEq, exists_eq_left', asks_addOperator, Test.mk.injEq]
      grind
  · simp [hfield, Ne.symm hfield]

/-! ### All parameters -/

variable {l before after : List (String × String)} {e a : String × String}

theorem inForce_cons : InForce (a :: l) e ↔ e = a ∧ (∀ later ∈ l, ¬Replaces later.1 e.1) ∨ InForce l e := by
  constructor
  · rintro ⟨before, after, heq, hlater⟩
    cases before with
    | nil => cases heq; exact .inl ⟨rfl, hlater⟩
    | cons b before => cases heq; exact .inr ⟨before, after, rfl, hlater⟩
  · rintro (⟨rfl, hlater⟩ | ⟨before, after, rfl, hlater⟩)
    · exact ⟨[], l, rfl, hlater⟩
    · exact ⟨a :: before, after, rfl, hlater⟩

theorem InForce.insert (h : InForce (before ++ after) e) (hnew : ∀ b ∈ before, ¬Replaces a.1 b.1) :
    InForce (before ++ a :: after) e := by
  induction before with
  | nil => exact inForce_cons.2 (.inr h)
  | cons b before ih =>
    rw [List.forall_mem_cons] at hnew
    rcases inForce_cons.1 h with ⟨rfl, hlater⟩ | h
    · -- the new parameter is one more after `e`, and it does not replace it
      refine inForce_cons.2 (.inl ⟨rfl, fun later hmem => ?_⟩)
      rcases List.mem_append.1 hmem with hmem | hmem
      · exact hlater later (List.mem_append_left _ hmem)
      · rcases List.mem_cons.1 hmem with rfl | hmem
        · exact hnew.1
        · exact hlater later (List.mem_append_right _ hmem)
    · exact inForce_cons.2 (.inr (ih h hnew.2))

def Leaves (l : List (String × String)) (t : Test) : Prop :=
  ∀ e ∈ l, ∀ slot, slot? e.1 = some slot → ¬Supersedes slot (t.field, t.op)

theorem leaves_cons {t : Test} :
    Leaves (a :: l) t ↔ (∀ slot, slot? a.1 = some slot → ¬Supersedes slot (t.field, t.op)) ∧ Leaves l t :=
  List.forall_mem_cons

theorem leaves_iff {t : Test} (h : test? e.1 e.2 = some t) :
    Leaves l t ↔ ∀ later ∈ l, ¬Replaces later.1 e.1 := by
  obtain ⟨slot, hslot, rfl⟩ := Option.map_eq_some_iff.1 h
  refine forall₂_congr fun later _ => ⟨?_, fun hno slot' hslot' hsup => hno ⟨slot', slot, hslot', hslot, hsup⟩⟩
  rintro hno ⟨slot', slot'', hslot', hslot'', hsup⟩
  obtain rfl := Option.some.inj (hslot.symm.trans hslot'')
  exact hno slot' hslot' hsup

theorem makes_addParameter {f : Filter} {t : Test} :
    Filter.Makes (addParameter f a.1 a.2) t ↔
      test? a.1 a.2 = some t ∨ f.Makes t ∧ ∀ slot, slot? a.1 = some slot → ¬Supersedes slot (t.field, t.op) := by
  rw [addParameter_eq]
  unfold test?
  cases slot? a.1 with
  | none => simp
  | some slot => simp [makes_addTest, eq_comm]

theorem exists_inForce_cons {t : Test} :
    (∃ e, InForce (a :: l) e ∧ test? e.1 e.2 = some t) ↔
      test? a.1 a.2 = some t ∧ Leaves l t ∨ ∃ e, InForce l e ∧ test? e.1 e.2 = some t := by
  constructor
  · rintro ⟨e, hforce, ht⟩
    rcases inForce_cons.1 hforce with ⟨rfl, hlater⟩ | hforce
    · exact .inl ⟨ht, (leaves_iff ht).2 hlater⟩
    · exact .inr ⟨e, hforce, ht⟩
  · rintro (⟨ht, hleaves⟩ | ⟨e, hforce, ht⟩)
    · exact ⟨a, inForce_cons.2 (.inl ⟨rfl, (leaves_iff ht).1 hleaves⟩), ht⟩
    · exact ⟨e, inForce_cons.2 (.inr hforce), ht⟩

/-- The invariant of the fold: a former test stays until a parameter supersedes it. -/
theorem makes_foldl_addParameter {f : Filter} {t : Test} :
    Filter.Makes (l.foldl (fun f e => addParameter f e.1 e.2) f) t ↔
      (∃ e, InForce l e ∧ test? e.1 e.2 = some t) ∨ f.Makes t ∧ Leaves l t := by
  induction l generalizing f with
  | nil => simp [InForce, Leaves]
  | cons a l ih =>
    rw [List.foldl_cons, ih, makes_addParameter, exists_inForce_cons, leaves_cons, or_and_right, and_assoc,
      or_left_comm, or_assoc]

theorem makes_filterOf {params : OrdMap String String} {t : Test} :
    Filter.Makes (filterOf params) t ↔ ∃ e, InForce params.toList e ∧ test? e.1 e.2 = some t := by
  have hempty : ¬Filter.Makes ∅ t := by
    rintro ⟨c, hc, -⟩
    cases hc
  rw [filterOf, makes_foldl_addParameter, or_iff_left fun h => hempty h.1]

theorem filterOf_accepts_iff {params : OrdMap String String} {row : Fields} :
    (filterOf params).accepts row = true ↔
      ∀ e t, InForce params.toList e → test? e.1 e.2 = some t → t.holds row = true := by
  simp only [Filter.accepts_iff, makes_filterOf]
  exact ⟨fun h e t hforce ht => h t ⟨e, hforce, ht⟩, fun h t ⟨e, hforce, ht⟩ => h e t hforce ht⟩

theorem filterOf_single_accepts_iff {key raw : String} {row : Fields} :
    (filterOf (single key raw)).accepts row = true ↔ ∀ t, test? key raw = some t → t.holds row = true := by
  have hforce (e) : InForce (single key raw).toList e ↔ e = (key, raw) := by
    show InForce [(key, raw)] e ↔ _
    rw [inForce_cons]
    simp [InForce]
  rw [filterOf_accepts_iff]
  exact ⟨fun h t => h _ t ((hforce _).2 rfl), fun h e t he => (hforce e).1 he ▸ h t⟩

/-- The parameters in force are honoured, each as if it stood alone, and there is no other condition. So a
parameter that replaces none before it never makes a result larger, wherever it is put. -/
theorem accepts_iff_inForce (params : OrdMap String String) (row : Fields) :
    ((ofParams params).filter.accepts row = true ↔
        ∀ key raw, InForce params.toList (key, raw) →
          (ofParams (single key raw)).filter.accepts row = true) ∧
      ∀ before key raw after (larger : OrdMap String String), params.toList = before ++ after →
        larger.toList = before ++ (key, raw) :: after → (∀ e ∈ before, ¬Replaces key e.1) →
          (ofParams larger).filter.accepts row = true → (ofParams params).filter.accepts row = true := by
  constructor
  · show (filterOf params).accepts row = true ↔
      ∀ key raw, _ → (filterOf (single key raw)).accepts row = true
    rw [filterOf_accepts_iff]
    simp only [filterOf_single_accepts_iff]
    exact ⟨fun h key raw hforce t => h (key, raw) t hforce, fun h e t hforce => h e.1 e.2 hforce t⟩
  · intro before key raw after larger hparams hlarger hnew hrow
    refine filterOf_accepts_iff.2 fun e t hforce ht => filterOf_accepts_iff.1 hrow e t ?_ ht
    rw [hlarger]
    exact (hparams ▸ hforce).insert hnew

theorem accepts_iff_inForce_ages :
    let params : OrdMap String String := OrdMap.ofList [("filter[age][gte]", "3")]
    let larger : OrdMap String String := OrdMap.ofList [("filter[age][gte]", "3"), ("filter[age][lt]", "7")]
    let row (age : Int) : Fields := [("age", .num (.int age))]
    (ofParams larger).filter.accepts (row 5) = true ∧ (ofParams params).filter.accepts (row 5) = true ∧
      (ofParams larger).filter.accepts (row 7) = false ∧ (ofParams params).filter.accepts (row 7) = true := by
  intro params larger row
  have hlarger : (ofParams larger).filter.accepts (row 5) = true := by decide
  have hnew : ∀ e ∈ params.toList, ¬Replaces "filter[age][lt]" e.1 := by
    rintro e he ⟨later, earlier, hlater, hearlier, -, hop⟩
    rw [List.mem_singleton.1 he] at hearlier
    cases hlater
    cases hearlier
    simp at hop
  exact ⟨hlarger, (accepts_iff_inForce params _).2 params.toList "filter[age][lt]" "7" [] larger rfl rfl hnew
    hlarger, by decide, by decide⟩

/-- A bare parameter is forgotten when an operator for its field follows it, and so is an operator when it
comes again by another name: a row is accepted that the forgotten parameter alone keeps out. -/
theorem forgotten_parameters :
    let accepts (params : List (String × String)) (row : Fields) : Bool :=
      (ofParams (OrdMap.ofList params)).filter.accepts row
    let row (n : Int) : Fields := [("age", .num (.int n))]
    (accepts [("filter[age]", "5"), ("filter[age][gte]", "3")] (row 7) = true ∧
      accepts [("filter[age]", "5")] (row 7) = false) ∧
      accepts [("filter[age][eq]", "5"), ("filter[age][equals]", "7")] (row 7) = true ∧
        accepts [("filter[age][eq]", "5")] (row 7) = false :=
  ⟨⟨by decide, by decide⟩, by decide, by decide⟩

end EntityRest.ListQuery
