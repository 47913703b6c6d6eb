import EntityRest.Proofs.Driver.Writes
import EntityRest.Proofs.Query.Equality

/-! # Looking rows up by an identity column

Writes keep the values of an identity column strictly different (`Store.Distinct`), while a look-up
compares loosely. So a look-up finds one row at most unless two rows hold values that differ and still
count as the value asked for; such `Rival`s exist only where one of the rows holds a number
(`reached_lookup_unique_iff`). -/

namespace EntityRest

namespace Store

/-- One row holds a number and the other a different value, and both values count as `v`. -/
def Rival (column : String) (v : Json) (row other : Fields) : Prop :=
  ∃ n w, row.get? column = some (.num n) ∧ other.get? column = some w ∧
    (Json.num n).looseEq v = true ∧ w.looseEq v = true ∧ (Json.num n).same w = false

variable {column : String} {v : Json} {row other : Fields}

/-- Two rows that share no value and are both found by one question are rivals, one way or the other. -/
theorem rival_of_not_share {w w' : Json} (hrow : row.get? column = some w)
    (hother : other.get? column = some w') (hnull : w.isNull = false) (hw : w.looseEq v = true)
    (hw' : w'.looseEq v = true) (hshare : ¬Share column row other) :
    Rival column v row other ∨ Rival column v other row := by
  have hne : w.same w' = false := by
    cases hsame : w.same w' with
    | false => rfl
    | true => exact absurd ⟨w, w', hrow, hother, hnull, hsame⟩ hshare
  rcases Json.exists_num_of_looseEq hw hw' hne with ⟨n, rfl⟩ | ⟨n, rfl⟩
  · exact .inl ⟨n, w', hrow, hother, hw, hw', hne⟩
  · exact .inr ⟨n, w, hother, hrow, hw', hw, by rw [Json.same_comm]; exact hne⟩

theorem exists_of_same_getOrNull (hv : v.isNull = false) (h : (row.getOrNull column).same v = true) :
    ∃ w, row.get? column = some w ∧ w.isNull = false ∧ w.same v = true := by
  have hnull : (row.getOrNull column).isNull = false := by rw [Json.isNull_of_same h, hv]
  rw [Fields.getOrNull] at h hnull
  cases hget : row.get? column with
  | none => rw [hget] at hnull; cases hnull
  | some w => rw [hget] at h hnull; exact ⟨w, rfl, hnull, h⟩

theorem Rival.ne (h : Rival column v row other) : row ≠ other := by
  rintro rfl
  obtain ⟨n, w, hn, hw, -, -, hne⟩ := h
  rw [hn, Option.some.injEq] at hw
  rw [← hw, Json.same_refl] at hne
  cases hne

end Store

theorem length_filter_le_one {α : Type} {R : α → α → Prop} {p : α → Bool} {l : List α}
    (h : l.Pairwise R) (hp : ∀ a ∈ l, ∀ b ∈ l, p a = true → p b = true → ¬R a b) :
    (l.filter p).length ≤ 1 := by
  have hpair := h.filter p
  have hmem : ∀ a ∈ l.filter p, a ∈ l ∧ p a = true := fun a ha => List.mem_filter.1 ha
  match hl : l.filter p with
  | [] => simp
  | [_] => simp
  | a :: b :: rest =>
    rw [hl] at hpair hmem
    have ha := hmem a (by simp)
    have hb := hmem b (by simp)
    exact absurd (List.rel_of_pairwise_cons hpair (by simp)) (hp a ha.1 b hb.1 ha.2 hb.2)

theorem eq_of_length_le_one {α : Type} {l : List α} (h : l.length ≤ 1) {a b : α} (ha : a ∈ l)
    (hb : b ∈ l) : a = b := by
  match l, h with
  | [c], _ => rw [List.mem_singleton.1 ha, List.mem_singleton.1 hb]

namespace InMemory

/-- In every state that calls lead to, the question for a value of an identity column finds one row at
most if and only if no row that holds an equal number has a rival. One row at most holds the very value
that is asked for. -/
theorem reached_lookup_unique_iff {schema : String → Entity} {enforceKeys : Bool} {scope : Nat}
    {env : Env} (h : Reached schema enforceKeys scope env) (table : String) {column : String}
    (hcolumn : Store.IsIdentity (schema table) column) {v : Json} (hv : v.isNull = false) {f : Filter}
    (hf : f.AsksFor column v) :
    let rows := (env.tables scope).rows table
    ((rows.filter f.accepts).length ≤ 1 ↔
        ∀ row ∈ rows, ∀ other ∈ rows, ¬Store.Rival column v row other) ∧
      (rows.filter fun row => (row.getOrNull column).same v).length ≤ 1 := by
  intro rows
  have hdistinct : Store.Distinct (schema table) rows :=
    h.writes.distinct (fun table => by rw [rows_empty]; exact .nil) table
  refine ⟨⟨fun hle row hrow other hother hrival => ?_, fun hno => ?_⟩, ?_⟩
  · obtain ⟨n, w, hn, hw, hnv, hwv, -⟩ := id hrival
    have hmem : row ∈ rows.filter f.accepts :=
      List.mem_filter.2 ⟨hrow, (hf.accepts_iff hv row).2 ⟨_, hn, hnv⟩⟩
    have hmem' : other ∈ rows.filter f.accepts :=
      List.mem_filter.2 ⟨hother, (hf.accepts_iff hv other).2 ⟨_, hw, hwv⟩⟩
    exact hrival.ne (eq_of_length_le_one hle hmem hmem')
  · refine length_filter_le_one hdistinct fun row hrow other hother hfound hfound' hapart => ?_
    obtain ⟨w, hw, hwv⟩ := (hf.accepts_iff hv row).1 hfound
    obtain ⟨w', hw', hwv'⟩ := (hf.accepts_iff hv other).1 hfound'
    have hnull : w.isNull = false := by
      cases w with
      | null => rw [Json.looseEq_null hv] at hwv; cases hwv
      | _ => rfl
    rcases Store.rival_of_not_share hw hw' hnull hwv hwv' (hapart column hcolumn) with hr | hr
    · exact hno row hrow other hother hr
    · exact hno other hother row hrow hr
  · refine length_filter_le_one hdistinct fun row _ other _ hfound hfound' hapart => ?_
    obtain ⟨w, hw, hnull, hwv⟩ := Store.exists_of_same_getOrNull hv hfound
    obtain ⟨w', hw', -, hwv'⟩ := Store.exists_of_same_getOrNull hv hfound'
    have hsame : w.same w' = true := Json.same_trans hwv (by rw [Json.same_comm]; exact hwv')
    exact hapart column hcolumn ⟨w, w', hw, hw', hnull, hsame⟩

/-- An account with the id `1` and one with the id `"1"`: the second creation passes the check, the
question for `"1"` finds both rows, and what it asks to delete is the wrong one. -/
theorem two_rows_of_one_id :
    ∃ env, Reached (fun _ => account) false 0 env ∧ (env.live.rows "account").length = 2 ∧
      ¬((env.live.rows "account").filter (Filter.ofId "1").accepts).length ≤ 1 ∧
      (env.live.find? account (Filter.ofId "1")).map (·.get? "id") = some (some (.int 1)) := by
  have h₁ : Reached (fun _ => account) false 0 Env.empty := .start rfl
  have h₂ := h₁.call (.create account (.ofList [("id", .int 1)])) rfl
  have h₃ := h₂.call (.create account (.ofList [("id", .str "1")])) rfl
  refine ⟨_, h₃, by decide, fun hle => ?_, rfl⟩
  have hiff := (reached_lookup_unique_iff h₃ "account" (.inl rfl : Store.IsIdentity account "id")
    (rfl : (Json.str "1").isNull = false) (.inl rfl)).1
  refine hiff.1 hle [("id", .int 1)] (.head _) [("id", .str "1")] (.tail _ (.head _)) ?_
  exact ⟨.int 1, .str "1", rfl, rfl, by decide, by decide, rfl⟩

end InMemory

end EntityRest
