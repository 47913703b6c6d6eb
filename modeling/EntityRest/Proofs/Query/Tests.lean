import EntityRest.Proofs.Data.Entries
import EntityRest.Query.Match

/-! # The tests of a filter

A filter makes one test for each plain value and for each operator that it holds, and it accepts the rows
that pass all of them (`Filter.accepts_iff`). Merged into another filter, it keeps all its tests
(`Filter.accepts_of_union`), so the rows that the merged one accepts are found among the rows that it
accepts itself (`Filter.filter_union`). -/

namespace EntityRest

/-- A test of one field, by an operator or, without one, for a plain value. -/
structure Test where
  field : String
  op : Option FilterOp
  value : Json

/-- Whether a row passes a test. -/
def Test.holds (t : Test) (row : Fields) : Bool :=
  match t.op with
  | none => (row.getOrNull t.field).looseEq t.value
  | some op => op.holds (row.getOrNull t.field) t.value

/-- A condition asks for the value `v`, by the operator `op` if there is one. -/
inductive Condition.Asks : Condition → Option FilterOp → Json → Prop
  | literal (v : Json) : Asks (.literal v) none v
  | ops {m : OrdMap FilterOp Json} {op : FilterOp} {v : Json} (h : m.get? op = some v) :
    Asks (.ops m) (some op) v

theorem Condition.asks_literal {v w : Json} {o : Option FilterOp} :
    (literal v).Asks o w ↔ o = none ∧ w = v := by
  constructor
  · rintro ⟨⟩
    exact ⟨rfl, rfl⟩
  · rintro ⟨rfl, rfl⟩
    exact .literal w

theorem Condition.asks_ops {m : OrdMap FilterOp Json} {w : Json} {o : Option FilterOp} :
    (ops m).Asks o w ↔ ∃ op, o = some op ∧ m.get? op = some w := by
  constructor
  · rintro (_ | h)
    exact ⟨_, rfl, h⟩
  · rintro ⟨op, rfl, h⟩
    exact .ops h

/-- A filter makes a test. -/
def Filter.Makes (f : Filter) (t : Test) : Prop := ∃ c, f.get? t.field = some c ∧ c.Asks t.op t.value

theorem Condition.holds_iff {c : Condition} {field : String} {row : Fields} :
    c.holds (row.getOrNull field) = true ↔ ∀ op v, c.Asks op v → Test.holds ⟨field, op, v⟩ row = true := by
  cases c with
  | literal w =>
    refine ⟨fun h op v hasks => ?_, fun h => h none w (.literal w)⟩
    cases hasks
    exact h
  | ops m =>
    rw [Condition.holds, List.all_eq_true]
    refine ⟨fun h op v hasks => ?_, fun h e he => ?_⟩
    · cases hasks with
      | ops hv => exact h _ (OrdMap.get?_eq_some_iff.1 hv)
    · exact h (some e.1) e.2 (.ops (OrdMap.get?_eq_some_iff.2 he))

namespace Filter

variable {f g : Filter} {row : Fields}

theorem accepts_iff_holds :
    f.accepts row = true ↔ ∀ field c, f.get? field = some c → c.holds (row.getOrNull field) = true := by
  rw [accepts, List.all_eq_true]
  exact ⟨fun h field c hc => h (field, c) (OrdMap.get?_eq_some_iff.1 hc),
    fun h e he => h e.1 e.2 (OrdMap.get?_eq_some_iff.2 he)⟩

theorem accepts_iff : f.accepts row = true ↔ ∀ t, f.Makes t → t.holds row = true := by
  rw [accepts_iff_holds]
  constructor
  · rintro h ⟨field, op, v⟩ ⟨c, hc, hasks⟩
    exact Condition.holds_iff.1 (h field c hc) op v hasks
  · exact fun h field c hc => Condition.holds_iff.2 fun op v hasks => h ⟨field, op, v⟩ ⟨c, hc, hasks⟩

/-- The filter that wins in a merge loses none of its tests. -/
theorem accepts_of_union (h : accepts (f.union g) row = true) : g.accepts row = true := by
  refine accepts_iff_holds.2 fun field c hc => accepts_iff_holds.1 h field c ?_
  rw [OrdMap.get?_union, hc]
  rfl

theorem filter_union (f g : Filter) (rows : List Fields) :
    rows.filter (accepts (f.union g)) = (rows.filter g.accepts).filter (accepts (f.union g)) := by
  rw [List.filter_filter]
  refine List.filter_congr fun row _ => ?_
  cases hrow : accepts (f.union g) row with
  | false => rfl
  | true => rw [accepts_of_union hrow]; rfl

end Filter

end EntityRest
