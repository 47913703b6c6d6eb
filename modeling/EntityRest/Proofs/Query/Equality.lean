import EntityRest.Proofs.Json.Same
import EntityRest.Query.Match

/-! # Asking for a value

`Filter.AsksFor column v` are the two filters that ask for a value of a column, by the plain condition and
by the operator; both compare loosely (`accepts_iff`). Loose equality lets a number and a string of
different kinds meet, and two numbers that have the same double. Two values that differ can therefore both
be found by one question, but then at least one of them is a number (`exists_num_of_looseEq`). -/

namespace EntityRest

/-- The filter asks for the rows that hold a value in a column, and for nothing else. -/
def Filter.AsksFor (column : String) (v : Json) (f : Filter) : Prop :=
  f = OrdMap.ofList [(column, .literal v)] ∨
    f = OrdMap.ofList [(column, .ops (OrdMap.ofList [(.equals, v)]))]

theorem Filter.accepts_ofList_single (column : String) (c : Condition) (row : Fields) :
    Filter.accepts (OrdMap.ofList [(column, c)]) row = c.holds (row.getOrNull column) :=
  Bool.and_true _

theorem Condition.holds_ops_single (op : FilterOp) (v actual : Json) :
    Condition.holds actual (.ops (OrdMap.ofList [(op, v)])) = op.holds actual v :=
  Bool.and_true _

namespace Json

variable {v w w' : Json}

/-- A value that is no number is found by itself, or by a number with the same text. -/
theorem same_or_of_looseEq (hw : ∀ n, w ≠ num n) (h : w.looseEq v = true) :
    w.same v = true ∨ ∃ n, v = num n ∧ w = str n.text := by
  cases w with
  | num n => exact absurd rfl (hw n)
  | str s =>
    cases v with
    | num n => exact .inr ⟨n, rfl, by rw [beq_iff_eq.1 h]⟩
    | _ => exact .inl h
  | _ => left; cases v <;> exact h

/-- Two values that are no numbers and count as a third one are the same. -/
theorem same_of_looseEq (hw : ∀ n, w ≠ num n) (hw' : ∀ n, w' ≠ num n) (h : w.looseEq v = true)
    (h' : w'.looseEq v = true) : w.same w' = true := by
  rcases same_or_of_looseEq hw h with hv | ⟨n, rfl, rfl⟩
  · rcases same_or_of_looseEq hw' h' with hv' | ⟨n, rfl, rfl⟩
    · exact same_trans hv (by rw [same_comm]; exact hv')
    · -- only a number is the same as a number
      cases w with
      | num m => exact absurd rfl (hw m)
      | _ => cases hv
  · rcases same_or_of_looseEq hw' h' with hv' | ⟨m, hm, rfl⟩
    · cases w' with
      | num m => exact absurd rfl (hw' m)
      | _ => cases hv'
    · cases hm; exact same_refl _

/-- Of two different values that both count as a third one, one is a number. -/
theorem exists_num_of_looseEq (h : w.looseEq v = true) (h' : w'.looseEq v = true)
    (hne : w.same w' = false) : (∃ n, w = num n) ∨ ∃ n, w' = num n := by
  by_cases hw : ∃ n, w = num n
  · exact .inl hw
  · by_cases hw' : ∃ n, w' = num n
    · exact .inr hw'
    · have hsame := same_of_looseEq (not_exists.1 hw) (not_exists.1 hw') h h'
      rw [hsame] at hne
      cases hne

theorem isNull_eq_true_iff : v.isNull = true ↔ v = null := by cases v <;> simp [isNull]

theorem looseEq_null (hv : v.isNull = false) : null.looseEq v = false := by
  cases v <;> first | rfl | cases hv

theorem looseEq_null_right (hv : v.isNull = false) : v.looseEq null = false := by
  cases v <;> first | rfl | cases hv

end Json

/-- A row that is found by a value which is not null holds a value in the column. -/
theorem Filter.AsksFor.accepts_iff {f : Filter} {column : String} {v : Json} (h : f.AsksFor column v)
    (hv : v.isNull = false) (row : Fields) :
    f.accepts row = true ↔ ∃ w, row.get? column = some w ∧ w.looseEq v = true := by
  have heq : f.accepts row = (row.getOrNull column).looseEq v := by
    rcases h with rfl | rfl
    · exact accepts_ofList_single _ _ _
    · rw [accepts_ofList_single, Condition.holds_ops_single]; rfl
  rw [heq, Fields.getOrNull]
  cases row.get? column with
  | none => simp [Json.looseEq_null hv]
  | some w => simp

end EntityRest
