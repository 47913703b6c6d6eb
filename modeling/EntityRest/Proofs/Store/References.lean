import EntityRest.Proofs.Store.Identity

/-! # References between rows

Where keys are enforced, a row is written only if its keys are `Answered` by rows that are stored already
(`Step.mem_rows`). No write looks at the rows that refer to the row it changes, so a key can lose its
answer later: by a delete or an update of the last row that held it (`Step.withdraws`). -/

namespace EntityRest.Store

/-- A row refers to another one: it holds a key of a belongsTo relation of its entity that is not null. -/
structure Refers (e : Entity) (row : Fields) (r : Relation) (key : Json) : Prop where
  field : ∃ name d, e.field? name = some d ∧ d.relation = some r
  kind : r.kind = .belongsTo
  get?_key : row.get? r.foreignKey = some key
  not_null : key.isNull = false

/-- A row of the target holds the key in the referenced column. -/
def Answered (s : Store) (r : Relation) (key : Json) : Prop :=
  ∃ row ∈ s.rows r.target, holdsKey r.references key row = true

/-- The one row of a table that satisfies `p` is deleted, or overwritten by a successor that does not. -/
def LosesLast (p : Fields → Bool) (rows rows' : List Fields) (successor : Option Fields) : Prop :=
  ∃ (i : Nat) (hi : i < rows.length), p rows[i] = true ∧ (∀ row ∈ rows.eraseIdx i, p row = false) ∧
    (∀ row ∈ successor, p row = false) ∧ rows' = successor.elim (rows.eraseIdx i) (rows.set i)

/-- The target of a relation loses the last row that answers to a key. -/
def Withdraws (r : Relation) (key : Json) (s s' : Store) (successor : Option Fields) : Prop :=
  LosesLast (holdsKey r.references key) (s.rows r.target) (s'.rows r.target) successor

/-! ### The check of a row that is written -/

section Check

variable {s s' : Store} {enforceKeys : Bool} {e : Entity} {stamp : Stamp} {f : Filter}
variable {data row : Fields} {others : List Fields} {r : Relation} {key : Json}

theorem Refers.mem (h : Refers e row r key) : r ∈ e.fields.values.filterMap FieldDef.belongsTo? := by
  obtain ⟨name, d, hd, hr⟩ := h.field
  refine List.mem_filterMap.2 ⟨d, List.mem_map.2 ⟨(name, d), OrdMap.get?_eq_some_iff.1 hd, rfl⟩, ?_⟩
  rw [FieldDef.belongsTo?, hr]
  simp [h.kind]

theorem refers_of_mem (h : r ∈ e.fields.values.filterMap FieldDef.belongsTo?) (hkey : row.get? r.foreignKey = some key)
    (hnull : key.isNull = false) : Refers e row r key := by
  obtain ⟨d, hd, hr⟩ := List.mem_filterMap.1 h
  obtain ⟨⟨name, d'⟩, hfield, rfl⟩ := List.mem_map.1 hd
  obtain ⟨hrelation, hkind⟩ := Option.filter_eq_some_iff.1 hr
  exact ⟨⟨name, d', OrdMap.get?_eq_some_iff.2 hfield, hrelation⟩, of_decide_eq_true hkind, hkey, hnull⟩

theorem answered_of_danglingKey? (h : s.danglingKey? e row = none) (hrefers : Refers e row r key) :
    s.Answered r key := by
  have hr := List.findSome?_eq_none_iff.1 h r hrefers.mem
  rw [hrefers.get?_key] at hr
  dsimp only at hr
  split at hr
  · next hany =>
    rw [hrefers.not_null, Bool.false_or] at hany
    exact List.any_eq_true.1 hany
  · cases hr

theorem danglingKey?_eq_none_iff : s.danglingKey? e row = none ↔ ∀ r key, Refers e row r key → s.Answered r key := by
  refine ⟨fun h r key hrefers => answered_of_danglingKey? h hrefers, fun h => ?_⟩
  refine List.findSome?_eq_none_iff.2 fun r hr => ?_
  cases hkey : row.get? r.foreignKey with
  | none => rfl
  | some key =>
    cases hnull : key.isNull with
    | true => simp [hnull]
    | false =>
      have hany := List.any_eq_true.2 (h r key (refers_of_mem hr hkey hnull))
      simp [hany]

theorem answered_of_checkRow (h : s.checkRow true e row others = .ok ()) (hrefers : Refers e row r key) :
    s.Answered r key := by
  refine answered_of_danglingKey? ?_ hrefers
  rw [checkRow, if_pos rfl] at h
  cases hkey : s.danglingKey? e row with
  | none => rfl
  | some k => rw [hkey] at h; cases h

theorem checkRow_of_create (h : s.create enforceKeys e stamp data = .ok (row, s')) :
    s.checkRow enforceKeys e row (s.rows e.name) = .ok () := by
  unfold create at h
  dsimp only at h
  split at h
  · cases h
  · next hcheck => cases h; exact hcheck

theorem checkRow_of_update (h : s.update enforceKeys e stamp f data = .ok (row, s')) :
    ∃ others, s.checkRow enforceKeys e row others = .ok () := by
  unfold update at h
  dsimp only at h
  split at h
  · cases h
  · split at h
    · cases h
    · next hcheck => cases h; exact ⟨_, hcheck⟩

end Check

/-! ### What a write does to keys and their answers -/

/-- What one write does to the rows of its table, where every row that is written satisfies `P`. -/
inductive Rewrites (P : Fields → Prop) (rows : List Fields) : List Fields → Prop
  | add {row : Fields} (hrow : P row) : Rewrites P rows (rows ++ [row])
  | set {i : Nat} {row : Fields} (hi : i < rows.length) (hrow : P row) : Rewrites P rows (rows.set i row)
  | erase {i : Nat} (hi : i < rows.length) : Rewrites P rows (rows.eraseIdx i)

section Rows

variable {P : Fields → Prop} {p : Fields → Bool} {rows rows' : List Fields} {row : Fields}

theorem mem_set_iff {i : Nat} (hi : i < rows.length) {row' : Fields} :
    row ∈ rows.set i row' ↔ row = row' ∨ row ∈ rows.eraseIdx i := by
  rw [(List.set_perm_cons_eraseIdx hi row').mem_iff, List.mem_cons]

theorem last_of_others {i : Nat} (hi : i < rows.length) (hothers : ∀ row ∈ rows.eraseIdx i, p row = false)
    (hrow : row ∈ rows) (hp : p row = true) : p rows[i] = true := by
  rw [(List.getElem_cons_eraseIdx_perm hi).symm.mem_iff, List.mem_cons] at hrow
  rcases hrow with rfl | hrow
  · exact hp
  · rw [hothers row hrow] at hp; cases hp

theorem Rewrites.losesLast (h : Rewrites P rows rows') (hrow : row ∈ rows) (hp : p row = true)
    (hlost : ∀ row ∈ rows', p row = false) : ∃ successor, LosesLast p rows rows' successor := by
  cases h with
  | add _ =>
    rw [hlost row (List.mem_append_left _ hrow)] at hp
    cases hp
  | @set i row' hi _ =>
    have hothers : ∀ row ∈ rows.eraseIdx i, p row = false :=
      fun row hrow => hlost row ((mem_set_iff hi).2 (.inr hrow))
    have hnew : p row' = false := hlost row' ((mem_set_iff hi).2 (.inl rfl))
    exact ⟨some row', i, hi, last_of_others hi hothers hrow hp, hothers, by simpa using hnew, rfl⟩
  | @erase i hi => exact ⟨none, i, hi, last_of_others hi hlost hrow hp, hlost, by simp, rfl⟩

theorem LosesLast.mem {successor : Option Fields} (h : LosesLast p rows rows' successor)
    (hrow : row ∈ rows') : row ∈ rows ∨ successor = some row := by
  obtain ⟨i, hi, -, -, -, rfl⟩ := h
  cases successor with
  | none => exact .inl (List.mem_of_mem_eraseIdx hrow)
  | some row' =>
    rcases List.mem_or_eq_of_mem_set hrow with hrow | rfl
    · exact .inl hrow
    · exact .inr rfl

end Rows

section Steps

variable {schema : String → Entity} {s s' : Store} {r : Relation} {key : Json}

theorem Step.rewrites (h : Step schema true s s') :
    ∃ table rows', s' = s.insert table rows' ∧
      Rewrites (fun row => ∀ r key, Refers (schema table) row r key → s.Answered r key)
        (s.rows table) rows' := by
  cases h with
  | create he h =>
    obtain ⟨-, rfl, -⟩ := create_ok h
    exact ⟨_, _, rfl, he ▸ .add fun r key => answered_of_checkRow (checkRow_of_create h)⟩
  | update he h =>
    obtain ⟨i, hi, -, -, rfl, -⟩ := update_ok h
    obtain ⟨others, hcheck⟩ := checkRow_of_update h
    exact ⟨_, _, rfl, he ▸ .set hi fun r key => answered_of_checkRow hcheck⟩
  | delete he h =>
    obtain ⟨i, hi, -, rfl⟩ := delete_ok h
    exact ⟨_, _, rfl, .erase hi⟩

/-- A row is stored before a write, or all its keys are answered before it. -/
theorem Step.mem_rows (h : Step schema true s s') {table : String} {row : Fields}
    (hrow : row ∈ s'.rows table) :
    row ∈ s.rows table ∨ ∀ r key, Refers (schema table) row r key → s.Answered r key := by
  obtain ⟨table', rows', rfl, hrewrites⟩ := h.rewrites
  rw [rows_insert] at hrow
  split at hrow
  · next heq =>
    rw [heq]
    cases hrewrites with
    | add hnew =>
      rcases List.mem_append.1 hrow with hrow | hrow
      · exact .inl hrow
      · rw [List.mem_singleton.1 hrow]; exact .inr hnew
    | set hi hnew =>
      rcases List.mem_or_eq_of_mem_set hrow with hrow | rfl
      · exact .inl hrow
      · exact .inr hnew
    | erase hi => exact .inl (List.mem_of_mem_eraseIdx hrow)
  · exact .inl hrow

/-- A key loses its answer only with the last row that holds it. After such a write a row is one that was
there before, or what that last row was overwritten by. -/
theorem Step.withdraws (h : Step schema true s s') (hanswer : s.Answered r key)
    (hlost : ¬s'.Answered r key) :
    ∃ successor, Withdraws r key s s' successor ∧ ∀ table, ∀ row ∈ s'.rows table,
      row ∈ s.rows table ∨ table = r.target ∧ successor = some row := by
  obtain ⟨table, rows', rfl, hrewrites⟩ := h.rewrites
  obtain ⟨row, hrow, hholds⟩ := hanswer
  have hno : ∀ row ∈ Store.rows (s.insert table rows') r.target,
      holdsKey r.references key row = false := fun row hrow => by
    cases hkey : holdsKey r.references key row with
    | false => rfl
    | true => exact absurd ⟨row, hrow, hkey⟩ hlost
  by_cases htable : r.target = table
  · subst htable
    rw [rows_insert, if_pos rfl] at hno
    obtain ⟨successor, hloses⟩ := hrewrites.losesLast hrow hholds hno
    refine ⟨successor, ?_, fun table row hrow => ?_⟩
    · rw [Withdraws, rows_insert, if_pos rfl]
      exact hloses
    · rw [rows_insert] at hrow
      split at hrow
      · next heq =>
        rw [heq]
        exact (hloses.mem hrow).imp_right fun hnew => ⟨rfl, hnew⟩
      · exact .inl hrow
  · -- a write elsewhere leaves the row that answers
    rw [rows_insert, if_neg htable] at hno
    rw [hno row hrow] at hholds
    cases hholds

end Steps

end EntityRest.Store
