import EntityRest.Proofs.Data.OrdMap
import EntityRest.Proofs.Json.Same
import EntityRest.Proofs.Store.Row
import Mathlib.Data.List.Perm.Basic
import Mathlib.Logic.Relation

/-! # Identity columns

The rows of a table differ in their identity columns: in `id` and in each column that is flagged
unique. `Store.Step` is one write that succeeds, on any table, with the entity that `schema` names
for it. What a write does to the rows is said once, in `create_ok`, `update_ok` and `delete_ok`; it
follows that a step keeps the rows of every table `Distinct` and gives each of them an id. -/

open Relation (ReflTransGen)

namespace EntityRest

theorem Json.isNull_of_same {v w : Json} (h : v.same w = true) : v.isNull = w.isNull := by
  cases v <;> cases w <;> first | rfl | simp [Json.same] at h

namespace Store

/-- Two rows hold the same value in a column, and not null. -/
def Share (column : String) (row other : Fields) : Prop :=
  ∃ v w, row.get? column = some v ∧ other.get? column = some w ∧ v.isNull = false ∧ v.same w = true

theorem Share.symm {column : String} {row other : Fields} (h : Share column row other) :
    Share column other row := by
  obtain ⟨v, w, hv, hw, hnull, hsame⟩ := h
  exact ⟨w, v, hw, hv, by rw [← Json.isNull_of_same hsame, hnull], by rw [Json.same_comm, hsame]⟩

theorem clash_eq_true_iff {column : String} {row other : Fields} :
    clash column row other = true ↔ Share column row other := by
  unfold clash Share
  cases row.get? column <;> cases other.get? column <;> simp [Json.same_comm]

/-- The columns in which two rows may not share a value. -/
def IsIdentity (e : Entity) (column : String) : Prop :=
  column = "id" ∨ ∃ d, e.field? column = some d ∧ d.unique = true ∧ d.isRelation = false

theorem mem_identityColumns {e : Entity} {column : String} :
    column ∈ identityColumns e ↔ IsIdentity e column := by
  simp [identityColumns, Entity.uniqueFields, IsIdentity, Entity.field?, OrdMap.get?_eq_some_iff]

/-- Two rows share no value in an identity column. -/
def Apart (e : Entity) (row other : Fields) : Prop :=
  ∀ column, IsIdentity e column → ¬ Share column row other

theorem Apart.symm {e : Entity} {row other : Fields} (h : Apart e row other) : Apart e other row :=
  fun column hc hs => h column hc hs.symm

theorem Apart.congr {e : Entity} {row row' other : Fields}
    (hget : ∀ column, IsIdentity e column → row'.get? column = row.get? column) (h : Apart e row other) :
    Apart e row' other := by
  rintro column hc ⟨v, w, hv, hw⟩
  exact h column hc ⟨v, w, hget column hc ▸ hv, hw⟩

/-- No two rows share a value in an identity column. -/
def Distinct (e : Entity) (rows : List Fields) : Prop := rows.Pairwise (Apart e)

section Rows

variable {e : Entity} {rows : List Fields} {row : Fields} {i : Nat}

theorem Distinct.perm {rows' : List Fields} (h : Distinct e rows) (hp : rows.Perm rows') :
    Distinct e rows' :=
  (hp.pairwise_iff Apart.symm).1 h

theorem Distinct.append_singleton (h : Distinct e rows) (hrow : ∀ other ∈ rows, Apart e row other) :
    Distinct e (rows ++ [row]) :=
  Distinct.perm (List.pairwise_cons.2 ⟨hrow, h⟩) (List.perm_append_singleton row rows).symm

theorem Distinct.eraseIdx (h : Distinct e rows) (i : Nat) : Distinct e (rows.eraseIdx i) :=
  List.Pairwise.sublist (List.eraseIdx_sublist rows i) h

theorem Distinct.apart_of_mem_eraseIdx (h : Distinct e rows) (hi : i < rows.length) {other : Fields}
    (hother : other ∈ rows.eraseIdx i) : Apart e rows[i] other :=
  (List.pairwise_cons.1 (h.perm (List.getElem_cons_eraseIdx_perm hi).symm)).1 other hother

theorem Distinct.set (h : Distinct e rows) (hi : i < rows.length)
    (hrow : ∀ other ∈ rows.eraseIdx i, Apart e row other) : Distinct e (rows.set i row) :=
  Distinct.perm (List.pairwise_cons.2 ⟨hrow, h.eraseIdx i⟩) (List.set_perm_cons_eraseIdx hi row).symm

end Rows

theorem rows_insert (s : Store) (table table' : String) (rows : List Fields) :
    Store.rows (s.insert table rows) table' = if table' = table then rows else s.rows table' :=
  OrdMap.getD_insert s table table' rows []

theorem rows_eq_nil {s : Store} {table : String} (h : table ∉ s.keys) : s.rows table = [] := by
  rw [Store.rows, OrdMap.getD, OrdMap.get?_eq_none_iff.2 h]; rfl

section Checks

variable {s s' : Store} {enforceKeys : Bool} {e : Entity} {stamp : Stamp} {f : Filter}
variable {data row : Fields} {others : List Fields}

theorem apart_of_checkRow (h : s.checkRow enforceKeys e row others = .ok ()) :
    ∀ other ∈ others, Apart e row other := by
  intro other hother column hc hshare
  have hnone : clashingColumn? e row others = none := by
    unfold checkRow at h
    cases hcol : clashingColumn? e row others with
    | none => rfl
    | some c => rw [hcol] at h; split at h <;> cases h
  have hany := List.find?_eq_none.1 hnone column (mem_identityColumns.2 hc)
  exact hany (List.any_eq_true.2 ⟨other, hother, clash_eq_true_iff.2 hshare⟩)

/-- Without foreign keys a row that is apart from the others is accepted. -/
theorem checkRow_of_apart (h : ∀ other ∈ others, Apart e row other) :
    s.checkRow false e row others = .ok () := by
  have hnone : clashingColumn? e row others = none := by
    refine List.find?_eq_none.2 fun column hc hany => ?_
    obtain ⟨other, hother, hclash⟩ := List.any_eq_true.1 hany
    exact h other hother column (mem_identityColumns.1 hc) (clash_eq_true_iff.1 hclash)
  unfold checkRow
  rw [hnone]
  rfl

theorem create_ok (h : s.create enforceKeys e stamp data = .ok (row, s')) :
    row = newRow e stamp data ∧ s' = s.insert e.name (s.rows e.name ++ [row]) ∧
      ∀ other ∈ s.rows e.name, Apart e row other := by
  unfold create at h
  dsimp only at h
  split at h
  · cases h
  · next hcheck => cases h; exact ⟨rfl, rfl, apart_of_checkRow hcheck⟩

/-- The row that an update changes is the one that the filter finds, also when it is looked up. -/
theorem update_ok (h : s.update enforceKeys e stamp f data = .ok (row, s')) :
    ∃ (i : Nat) (hi : i < (s.rows e.name).length), s.find? e f = some (s.rows e.name)[i] ∧
      row = updatedRow e stamp (s.rows e.name)[i] data ∧
      s' = s.insert e.name ((s.rows e.name).set i row) ∧
      ∀ other ∈ (s.rows e.name).eraseIdx i, Apart e row other := by
  unfold update at h
  dsimp only at h
  split at h
  · cases h
  · next old hold =>
    obtain ⟨hi, rfl⟩ := List.getElem?_eq_some_iff.1 hold
    split at h
    · cases h
    · next hcheck =>
      cases h
      refine ⟨_, hi, ?_, rfl, rfl, apart_of_checkRow hcheck⟩
      rw [find?, List.find?_eq_getElem?_findIdx, hold]

/-- Without foreign keys an update goes through if the new row is apart from the others. -/
theorem update_of_find {old : Fields} (hfind : s.find? e f = some old)
    (hrow : ∀ i, (s.rows e.name)[i]? = some old → ∀ other ∈ (s.rows e.name).eraseIdx i,
      Apart e (updatedRow e stamp old data) other) :
    ∃ i, (s.rows e.name)[i]? = some old ∧ s.update false e stamp f data =
      .ok (updatedRow e stamp old data, s.insert e.name ((s.rows e.name).set i (updatedRow e stamp old data))) := by
  rw [find?, List.find?_eq_getElem?_findIdx] at hfind
  refine ⟨_, hfind, ?_⟩
  unfold update
  dsimp only
  rw [hfind]
  dsimp only
  rw [checkRow_of_apart (hrow _ hfind)]

theorem delete_ok (h : s.delete e f = .ok s') :
    ∃ (i : Nat) (hi : i < (s.rows e.name).length), s.find? e f = some (s.rows e.name)[i] ∧
      s' = s.insert e.name ((s.rows e.name).eraseIdx i) := by
  unfold delete at h
  dsimp only at h
  split at h
  · next hi =>
    cases h
    refine ⟨_, hi, ?_, rfl⟩
    rw [find?, List.find?_eq_getElem?_findIdx, List.getElem?_eq_getElem hi]
  · cases h

theorem delete_error {err : DriverError} (h : s.delete e f = .error err) : err = .recordNotFound e.name := by
  unfold delete at h
  dsimp only at h
  split at h
  · cases h
  · exact (Except.error.inj h).symm

variable {Q : Fields → Prop} (hs : ∀ row ∈ s.rows e.name, Q row)
include hs

theorem forall_rows_create (hnew : Q (newRow e stamp data))
    (h : s.create enforceKeys e stamp data = .ok (row, s')) : ∀ row ∈ s'.rows e.name, Q row := by
  obtain ⟨rfl, rfl, -⟩ := create_ok h
  rw [rows_insert, if_pos rfl]
  intro row hrow
  rcases List.mem_append.1 hrow with hrow | hrow
  · exact hs row hrow
  · rw [List.mem_singleton.1 hrow]; exact hnew

theorem forall_rows_update (hrow : ∀ old, Q old → Q (updatedRow e stamp old data))
    (h : s.update enforceKeys e stamp f data = .ok (row, s')) : ∀ row ∈ s'.rows e.name, Q row := by
  obtain ⟨i, hi, -, rfl, rfl, -⟩ := update_ok h
  rw [rows_insert, if_pos rfl]
  intro row hmem
  rcases List.mem_or_eq_of_mem_set hmem with hmem | rfl
  · exact hs row hmem
  · exact hrow _ (hs _ (List.getElem_mem hi))

theorem forall_rows_delete (h : s.delete e f = .ok s') : ∀ row ∈ s'.rows e.name, Q row := by
  obtain ⟨i, hi, -, rfl⟩ := delete_ok h
  rw [rows_insert, if_pos rfl]
  exact fun row hrow => hs row (List.mem_of_mem_eraseIdx hrow)

end Checks

/-! ### Steps -/

/-- One write that succeeds, by the entity that `schema` names for its table. -/
inductive Step (schema : String → Entity) (enforceKeys : Bool) (s : Store) : Store → Prop
  | create {e : Entity} {stamp : Stamp} {data row : Fields} {s' : Store} (he : e = schema e.name)
      (h : s.create enforceKeys e stamp data = .ok (row, s')) : Step schema enforceKeys s s'
  | update {e : Entity} {stamp : Stamp} {f : Filter} {data row : Fields} {s' : Store}
      (he : e = schema e.name) (h : s.update enforceKeys e stamp f data = .ok (row, s')) :
      Step schema enforceKeys s s'
  | delete {e : Entity} {f : Filter} {s' : Store} (he : e = schema e.name)
      (h : s.delete e f = .ok s') : Step schema enforceKeys s s'

/-- Any number of writes that succeed. -/
abbrev Writes (schema : String → Entity) (enforceKeys : Bool) : Store → Store → Prop :=
  ReflTransGen (Step schema enforceKeys)

/-- What one write does to the rows of its table. -/
inductive RowsStep (e : Entity) (rows : List Fields) : List Fields → Prop
  | add {row : Fields} (hid : row.contains "id" = true) (hrow : ∀ other ∈ rows, Apart e row other) :
      RowsStep e rows (rows ++ [row])
  | set {i : Nat} {row : Fields} (hi : i < rows.length)
      (hid : rows[i].contains "id" = true → row.contains "id" = true)
      (hrow : ∀ other ∈ rows.eraseIdx i, Apart e row other) : RowsStep e rows (rows.set i row)
  | erase (i : Nat) : RowsStep e rows (rows.eraseIdx i)

section Steps

variable {schema : String → Entity} {enforceKeys : Bool} {s s' : Store}

theorem Step.rows (h : Step schema enforceKeys s s') :
    ∃ table rows', s' = s.insert table rows' ∧ RowsStep (schema table) (s.rows table) rows' := by
  cases h with
  | create he h =>
    obtain ⟨rfl, rfl, hrow⟩ := create_ok h
    exact ⟨_, _, rfl, he ▸ .add (contains_id_newRow _ _ _) hrow⟩
  | update he h =>
    obtain ⟨i, hi, -, rfl, rfl, hrow⟩ := update_ok h
    exact ⟨_, _, rfl, he ▸ .set hi (fun hid => contains_updatedRow hid _ _ _) hrow⟩
  | delete he h =>
    obtain ⟨i, hi, -, rfl⟩ := delete_ok h
    exact ⟨_, _, rfl, .erase i⟩

theorem RowsStep.distinct {e : Entity} {rows rows' : List Fields} (h : RowsStep e rows rows')
    (hd : Distinct e rows) : Distinct e rows' := by
  cases h with
  | add _ hrow => exact hd.append_singleton hrow
  | set hi _ hrow => exact hd.set hi hrow
  | erase i => exact hd.eraseIdx i

theorem RowsStep.hasId {e : Entity} {rows rows' : List Fields} (h : RowsStep e rows rows')
    (hid : ∀ row ∈ rows, row.contains "id" = true) : ∀ row ∈ rows', row.contains "id" = true := by
  intro row hrow
  cases h with
  | add hnew _ =>
    rcases List.mem_append.1 hrow with hrow | hrow
    · exact hid row hrow
    · rw [List.mem_singleton.1 hrow]; exact hnew
  | set hi hset _ =>
    rcases List.mem_or_eq_of_mem_set hrow with hrow | rfl
    · exact hid row hrow
    · exact hset (hid _ (List.getElem_mem hi))
  | erase i => exact hid row (List.mem_of_mem_eraseIdx hrow)

/-- The rows of every table satisfy `P`, of the entity that `schema` names for the table. -/
def Everywhere (P : Entity → List Fields → Prop) (schema : String → Entity) (s : Store) : Prop :=
  ∀ table, P (schema table) (s.rows table)

theorem Step.keeps {P : Entity → List Fields → Prop}
    (hP : ∀ e rows rows', RowsStep e rows rows' → P e rows → P e rows')
    (h : Step schema enforceKeys s s') {table : String} (hs : P (schema table) (s.rows table)) :
    P (schema table) (s'.rows table) := by
  obtain ⟨table', rows', rfl, hrows⟩ := h.rows
  rw [rows_insert]
  split
  · next heq => subst heq; exact hP _ _ _ hrows hs
  · exact hs

theorem Step.everywhere {P : Entity → List Fields → Prop}
    (hP : ∀ e rows rows', RowsStep e rows rows' → P e rows → P e rows')
    (h : Step schema enforceKeys s s') (hs : Everywhere P schema s) : Everywhere P schema s' :=
  fun table => h.keeps hP (hs table)

theorem Writes.everywhere {P : Entity → List Fields → Prop}
    (hP : ∀ e rows rows', RowsStep e rows rows' → P e rows → P e rows')
    (h : Writes schema enforceKeys s s') (hs : Everywhere P schema s) : Everywhere P schema s' := by
  induction h with
  | refl => exact hs
  | tail _ hstep ih => exact hstep.everywhere hP ih

theorem Writes.keys_subset (h : Writes schema enforceKeys s s') : s.keys ⊆ s'.keys := by
  induction h with
  | refl => exact List.Subset.refl _
  | tail _ hstep ih =>
    obtain ⟨table, rows', rfl, -⟩ := hstep.rows
    exact fun k hk => OrdMap.mem_keys_insert.2 (.inr (ih hk))

theorem Writes.distinct (h : Writes schema enforceKeys s s') (hs : Everywhere Distinct schema s) :
    Everywhere Distinct schema s' :=
  h.everywhere (fun _ _ _ => RowsStep.distinct) hs

theorem Writes.hasId (h : Writes schema enforceKeys s s')
    (hs : Everywhere (fun _ rows => ∀ row ∈ rows, row.contains "id" = true) schema s) :
    Everywhere (fun _ rows => ∀ row ∈ rows, row.contains "id" = true) schema s' :=
  h.everywhere (P := fun _ rows => ∀ row ∈ rows, row.contains "id" = true)
    (fun _ _ _ => RowsStep.hasId) hs

end Steps

end Store

end EntityRest
