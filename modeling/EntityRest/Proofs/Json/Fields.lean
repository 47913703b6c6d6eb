import EntityRest.Store.Write

/-! # Reading a row after a change

What `get?` and `contains` give after the fields of an object have been set, alone or by `union`, and where
the fields come from. -/

namespace EntityRest.Fields

@[simp] theorem contains_insert (o : Fields) (k l : String) (v : Json) :
    (insert o k v).contains l = (decide (l = k) || o.contains l) := by
  rw [contains, get?_insert, contains]
  by_cases h : l = k <;> simp [h]

theorem union_cons (o : Fields) (e : String × Json) (p : Fields) :
    o.union (e :: p) = (o.insert e.1 e.2).union p := rfl

/-- A field that the second object does not have keeps the value of the first. -/
theorem get?_union_of_not_contains {p : Fields} {k : String} (h : p.contains k = false) (o : Fields) :
    (o.union p).get? k = o.get? k := by
  induction p generalizing o with
  | nil => rfl
  | cons e p ih =>
    obtain ⟨l, v⟩ := e
    rw [contains, get?_cons] at h
    split at h
    · simp at h
    · next hk => rw [union_cons, ih h, get?_insert, if_neg hk]

theorem contains_union_left {o : Fields} {k : String} (h : o.contains k = true) (p : Fields) :
    (o.union p).contains k = true := by
  induction p generalizing o with
  | nil => exact h
  | cons e p ih => rw [union_cons]; exact ih (by simp [h])

theorem mem_insert {o : Fields} {k : String} {v : Json} {c : String × Json} (h : c ∈ insert o k v) :
    c = (k, v) ∨ c ∈ o := by
  induction o with
  | nil => exact .inl (List.mem_singleton.1 h)
  | cons e o ih =>
    unfold insert at h
    split at h
    · exact (List.mem_cons.1 h).imp_right (List.mem_cons_of_mem _)
    · split at h
      · exact List.mem_cons.1 h
      · rcases List.mem_cons.1 h with rfl | h
        · exact .inr List.mem_cons_self
        · exact (ih h).imp_right (List.mem_cons_of_mem _)

theorem mem_union {o p : Fields} {c : String × Json} (h : c ∈ o.union p) : c ∈ o ∨ c ∈ p := by
  induction p generalizing o with
  | nil => exact .inl h
  | cons e p ih =>
    rcases ih (o := o.insert e.1 e.2) h with hmem | hmem
    · rcases mem_insert hmem with rfl | hmem
      · exact .inr List.mem_cons_self
      · exact .inl hmem
    · exact .inr (List.mem_cons_of_mem _ hmem)

end EntityRest.Fields
