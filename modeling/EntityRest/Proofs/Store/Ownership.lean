import EntityRest.Access.Check
import EntityRest.Proofs.Store.Identity

/-! # Rows of one user

A row belongs to the user whose id its owner key holds. `OwnChange` is what a user may do to the rows
of a table, and `OwnTables` what to all tables; a create that sets the owner key, and an update or a
delete of a row that was looked up and belongs to the user, do no more than that. -/

namespace EntityRest

/-- Whether a row belongs to the user of a request. Nothing belongs to nobody. -/
def owns (k : String) (user : Option User) (row : Fields) : Bool :=
  user.elim false fun u => (row.get? k).elim false (·.isIdText u.id)

theorem Json.isIdText_inj {j : Json} {id id' : String} (h : j.isIdText id = true)
    (h' : j.isIdText id' = true) : id = id' := by
  cases j with
  | str s => exact (beq_iff_eq.1 h).symm.trans (beq_iff_eq.1 h')
  | num n => exact (beq_iff_eq.1 h).symm.trans (beq_iff_eq.1 h')
  | null | bool | arr | obj => cases h

theorem owns_eq_true_iff {k : String} {user : Option User} {row : Fields} :
    owns k user row = true ↔
      ∃ u, user = some u ∧ ∃ v, row.get? k = some v ∧ v.isIdText u.id = true := by
  cases user <;> cases hrow : row.get? k <;> simp [owns, hrow]

/-- What a request of `user` may do to the rows: add a row of the user's own, or change or remove one,
without touching the owner key `k`. -/
inductive OwnChange (k : String) (user : Option User) (rows : List Fields) : List Fields → Prop
  | none : OwnChange k user rows rows
  | add {u : User} {row : Fields} (hu : user = some u) (hrow : row.get? k = some (.str u.id)) :
      OwnChange k user rows (rows ++ [row])
  | set {i : Nat} {row : Fields} (hi : i < rows.length) (hown : owns k user rows[i] = true)
      (hrow : row.get? k = rows[i].get? k) : OwnChange k user rows (rows.set i row)
  | erase {i : Nat} (hi : i < rows.length) (hown : owns k user rows[i] = true) :
      OwnChange k user rows (rows.eraseIdx i)

namespace OwnChange

variable {k : String} {user : Option User} {rows rows' : List Fields}

theorem filter_set_of_not {α : Type} {p : α → Bool} {l : List α} {i : Nat} {a : α} (hi : i < l.length)
    (hold : p l[i] = false) (ha : p a = false) : (l.set i a).filter p = l.filter p := by
  induction l generalizing i with
  | nil => simp at hi
  | cons b l ih =>
    cases i with
    | zero => simp_all
    | succ i =>
      rw [List.set_cons_succ, List.filter_cons, List.filter_cons,
        ih (by simpa using hi) (by simpa using hold)]

theorem filter_eraseIdx_of_not {α : Type} {p : α → Bool} {l : List α} {i : Nat} (hi : i < l.length)
    (hold : p l[i] = false) : (l.eraseIdx i).filter p = l.filter p := by
  induction l generalizing i with
  | nil => simp at hi
  | cons b l ih =>
    cases i with
    | zero => simp_all
    | succ i =>
      rw [List.eraseIdx_cons_succ, List.filter_cons, List.filter_cons,
        ih (by simpa using hi) (by simpa using hold)]

/-- The rows of all others are still there, unchanged and in their order. -/
theorem filter_others (h : OwnChange k user rows rows') :
    rows'.filter (!owns k user ·) = rows.filter (!owns k user ·) := by
  cases h with
  | none => rfl
  | add hu hrow => simp [hu, owns, hrow, Json.isIdText]
  | @set i row hi hown hrow =>
    have hnew : owns k user row = true := by rw [← hown, owns, owns, hrow]
    exact filter_set_of_not hi (by simp [hown]) (by simp [hnew])
  | erase hi hown => exact filter_eraseIdx_of_not hi (by simp [hown])

/-- A row belongs to one user only. -/
theorem owns_eq_false {u : User} {row : Fields} (hne : ∀ v, user = some v → v.id ≠ u.id)
    (h : owns k (some u) row = true) : owns k user row = false := by
  by_contra hown
  rw [Bool.not_eq_false] at hown
  obtain ⟨v, rfl, w, hw, hv⟩ := owns_eq_true_iff.1 hown
  obtain ⟨_, ⟨⟩, w', hw', hu⟩ := owns_eq_true_iff.1 h
  obtain rfl : w = w' := Option.some.inj (hw.symm.trans hw')
  exact hne v rfl (Json.isIdText_inj hv hu)

theorem filter_owner {u : User} (h : OwnChange k user rows rows')
    (hne : ∀ v, user = some v → v.id ≠ u.id) :
    rows'.filter (owns k (some u)) = rows.filter (owns k (some u)) := by
  have hboth : ∀ l : List Fields,
      l.filter (owns k (some u)) = (l.filter (!owns k user ·)).filter (owns k (some u)) := fun l => by
    rw [List.filter_filter]
    refine List.filter_congr fun row _ => ?_
    cases hrow : owns k (some u) row with
    | false => rfl
    | true => rw [owns_eq_false hne hrow]; rfl
  rw [hboth rows', hboth rows, h.filter_others]

end OwnChange

/-- What a request of `user` may do to the tables: an `OwnChange` of one of them. -/
structure OwnTables (e : Entity) (k : String) (user : Option User) (s s' : Store) : Prop where
  own : OwnChange k user (s.rows e.name) (s'.rows e.name)
  others : ∀ table, table ≠ e.name → s'.rows table = s.rows table

namespace OwnTables

variable {e : Entity} {k : String} {user : Option User} {s : Store} {rows : List Fields}

theorem refl : OwnTables e k user s s := ⟨.none, fun _ _ => rfl⟩

theorem insert (h : OwnChange k user (s.rows e.name) rows) :
    OwnTables e k user s (s.insert e.name rows) where
  own := by rw [Store.rows_insert, if_pos rfl]; exact h
  others table hne := by rw [Store.rows_insert, if_neg hne]

variable {s' : Store} {enforceKeys : Bool} {stamp : Stamp} {f : Filter}
variable {data row old : Fields}

theorem of_create {u : User} (hcreated : k ≠ "createdAt") (hupdated : k ≠ "updatedAt")
    (hdata : data.get? k = some (.str u.id)) (h : s.create enforceKeys e stamp data = .ok (row, s')) :
    OwnTables e k (some u) s s' := by
  obtain ⟨rfl, rfl, -⟩ := Store.create_ok h
  have hmem : data.contains k = true := by rw [Fields.contains, hdata]; rfl
  refine .insert (.add rfl ?_)
  rw [Store.get?_newRow_of_contains hmem hcreated hupdated, hdata]

/-- The row that is changed is the one that was looked up with the same filter. -/
theorem of_update (hupdated : k ≠ "updatedAt") (hfind : s.find? e f = some old)
    (hown : owns k user old = true) (hdata : data.contains k = false)
    (h : s.update enforceKeys e stamp f data = .ok (row, s')) : OwnTables e k user s s' := by
  obtain ⟨i, hi, hfind', rfl, rfl, -⟩ := Store.update_ok h
  obtain rfl : old = (s.rows e.name)[i] := Option.some.inj (hfind.symm.trans hfind')
  exact .insert (.set hi hown (Store.get?_updatedRow_of_not_contains hdata hupdated e stamp _))

theorem of_delete (hfind : s.find? e f = some old) (hown : owns k user old = true)
    (h : s.delete e f = .ok s') : OwnTables e k user s s' := by
  obtain ⟨i, hi, hfind', rfl⟩ := Store.delete_ok h
  obtain rfl : old = (s.rows e.name)[i] := Option.some.inj (hfind.symm.trans hfind')
  exact .insert (.erase hi hown)

end OwnTables

end EntityRest
