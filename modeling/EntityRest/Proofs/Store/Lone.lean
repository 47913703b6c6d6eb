import EntityRest.Proofs.Query.TextFilter
import EntityRest.Proofs.Store.References

/-! # Rows that their id selects alone

If the id of a row is a text that selects no other row of its table (`Lone`), then this text finds the row, and
what is written by it changes the row or removes it from its place. No other text does either
(`mem_of_find?`, `mem_rows_update`, `mem_rows_delete`). -/

namespace EntityRest.Store

/-- A row of a table between the others, the only one that its id selects. -/
structure Lone (s : Store) (table id : String) where
  before : List Fields
  row : Fields
  after : List Fields
  rows_eq : s.rows table = before ++ row :: after
  get?_id : row.get? "id" = some (.str id)
  alone : ∀ other ∈ before ++ after, (Filter.ofId id).accepts other = false

/-- A row that a test leaves out is untouched where a row that passes it is overwritten or removed. -/
theorem mem_eraseIdx_of_ne {p : Fields → Bool} {rows : List Fields} {row : Fields} (hrow : row ∈ rows)
    (hnot : p row = false) {i : Nat} (hi : i < rows.length) (hp : p rows[i] = true) : row ∈ rows.eraseIdx i := by
  rw [(List.getElem_cons_eraseIdx_perm hi).symm.mem_iff, List.mem_cons] at hrow
  refine hrow.resolve_left ?_
  rintro rfl
  rw [hnot] at hp
  cases hp

namespace Lone

variable {s : Store} {e : Entity} {id : String} (l : s.Lone e.name id)

theorem accepts_row (other : String) : (Filter.ofId other).accepts l.row = true ↔ other = id := by
  have hheld : (Filter.ofId other).accepts l.row = (Json.str id).looseEq (.str other) := by
    rw [Filter.ofId, Filter.accepts_ofList_single, Fields.getOrNull, l.get?_id]
    rfl
  rw [hheld, Json.looseEq_str_iff]
  exact Option.some_inj

theorem row_mem : l.row ∈ s.rows e.name := by
  rw [l.rows_eq]
  exact List.mem_append_right _ List.mem_cons_self

/-- The row is not among the others. -/
theorem row_not_mem : l.row ∉ l.before ++ l.after := fun hmem => by
  have hself := (l.accepts_row id).2 rfl
  rw [l.alone _ hmem] at hself
  cases hself

theorem find?_eq : s.find? e (Filter.ofId id) = some l.row := by
  have hbefore : l.before.find? (Filter.ofId id).accepts = none :=
    List.find?_eq_none.2 fun other hother => by simp [l.alone other (List.mem_append_left _ hother)]
  rw [Store.find?, l.rows_eq, List.find?_append, hbefore, List.find?_cons_of_pos ((l.accepts_row id).2 rfl)]
  rfl

theorem findIdx_eq : (s.rows e.name).findIdx (Filter.ofId id).accepts = l.before.length := by
  have hbefore : l.before.findIdx (Filter.ofId id).accepts = l.before.length :=
    List.findIdx_eq_length.2 fun other hother => l.alone other (List.mem_append_left _ hother)
  rw [l.rows_eq, List.findIdx_append, hbefore, if_neg (Nat.lt_irrefl _), List.findIdx_cons,
    (l.accepts_row id).2 rfl]
  exact Nat.zero_add _

variable {enforceKeys : Bool} {stamp : Stamp} {data : Fields}

theorem update_eq
    (hcheck : s.checkRow enforceKeys e (updatedRow e stamp l.row data) (l.before ++ l.after) = .ok ()) :
    s.update enforceKeys e stamp (Filter.ofId id) data =
      .ok (updatedRow e stamp l.row data,
        s.insert e.name (l.before ++ updatedRow e stamp l.row data :: l.after)) := by
  have herase : (l.before ++ l.row :: l.after).eraseIdx l.before.length = l.before ++ l.after := by
    rw [List.eraseIdx_append_of_length_le (Nat.le_refl _), Nat.sub_self, List.eraseIdx_cons_zero]
  unfold Store.update
  dsimp only
  rw [l.findIdx_eq, l.rows_eq, List.getElem?_append_right (Nat.le_refl _), Nat.sub_self, List.getElem?_cons_zero]
  dsimp only
  rw [herase, hcheck, List.set_append_right _ _ (Nat.le_refl _), Nat.sub_self, List.set_cons_zero]

theorem delete_eq : s.delete e (Filter.ofId id) = .ok (s.insert e.name (l.before ++ l.after)) := by
  have hlt : l.before.length < (l.before ++ l.row :: l.after).length := by simp
  unfold Store.delete
  dsimp only
  rw [l.findIdx_eq, l.rows_eq, if_pos hlt, List.eraseIdx_append_of_length_le (Nat.le_refl _), Nat.sub_self,
    List.eraseIdx_cons_zero]

/-! ### Other ids -/

section

variable {other : String} (hother : other ≠ id)
include hother

theorem accepts_row_of_ne : (Filter.ofId other).accepts l.row = false :=
  Bool.eq_false_iff.2 fun haccepts => hother ((l.accepts_row other).1 haccepts)

theorem mem_of_find? {found : Fields} (h : s.find? e (Filter.ofId other) = some found) :
    found ∈ l.before ++ l.after := by
  have hmem : found ∈ l.before ++ l.row :: l.after := l.rows_eq ▸ List.mem_of_find?_eq_some h
  have hne : found ≠ l.row := by
    rintro rfl
    exact Bool.false_ne_true ((l.accepts_row_of_ne hother).symm.trans (List.find?_some h))
  simpa [hne] using hmem

/-- The row stays where another id finds its row. -/
theorem mem_eraseIdx {i : Nat} (hi : i < (s.rows e.name).length)
    (h : s.find? e (Filter.ofId other) = some (s.rows e.name)[i]) : l.row ∈ (s.rows e.name).eraseIdx i :=
  mem_eraseIdx_of_ne l.row_mem (l.accepts_row_of_ne hother) hi (List.find?_some h)

theorem mem_rows_update {row : Fields} {s' : Store}
    (h : s.update enforceKeys e stamp (Filter.ofId other) data = .ok (row, s')) : l.row ∈ s'.rows e.name := by
  obtain ⟨i, hi, hfind, -, rfl, -⟩ := update_ok h
  rw [rows_insert, if_pos rfl]
  exact (mem_set_iff hi).2 (.inr (l.mem_eraseIdx hother hi hfind))

theorem mem_rows_delete {s' : Store} (h : s.delete e (Filter.ofId other) = .ok s') : l.row ∈ s'.rows e.name := by
  obtain ⟨i, hi, hfind, rfl⟩ := delete_ok h
  rw [rows_insert, if_pos rfl]
  exact l.mem_eraseIdx hother hi hfind

end

end Lone

end EntityRest.Store
