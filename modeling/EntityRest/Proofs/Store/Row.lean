import EntityRest.Proofs.Json.Sorted
import EntityRest.Store.Write

/-! # The rows that writes make

What a new row and an updated one hold in a column that the data, or the old row, has a value for:
defaults and a fresh id only fill gaps, and besides the data only the times are overwritten. Rows stand in
the order of their keys, so an update with values of the row itself changes nothing but the time. -/

namespace EntityRest.Store

theorem get?_withId (id : String) (record : Fields) (k : String) :
    (withId id record).get? k = (record.get? k).or (if k = "id" then some (.str id) else none) := by
  unfold withId
  split
  · next hid =>
    by_cases hk : k = "id"
    · obtain ⟨v, hv⟩ := Option.isSome_iff_exists.1 hid
      rw [hk, hv]; rfl
    · rw [if_neg hk, Option.or_none]
  · next hid =>
    rw [Fields.get?_insert]
    by_cases hk : k = "id"
    · have hnone : record.get? "id" = none := by simpa [Fields.contains] using hid
      rw [hk, hnone]; rfl
    · rw [if_neg hk, if_neg hk, Option.or_none]

theorem get?_withDefaults (e : Entity) (data : Fields) (k : String) :
    (withDefaults e data).get? k = (data.get? k).or ((e.field? k).bind (·.default)) := by
  have hkeys := e.fields.nodup_keys
  unfold withDefaults Entity.field? OrdMap.get?
  generalize e.fields.toList = fields at hkeys ⊢
  induction fields generalizing data with
  | nil => exact (Option.or_none).symm
  | cons c fields ih =>
    obtain ⟨name, d⟩ := c
    rw [List.map_cons, List.nodup_cons] at hkeys
    rw [List.foldl_cons, ih _ hkeys.2, Lookup.lookup_cons_pair]
    dsimp only
    by_cases hk : k = name
    · have hnone : fields.lookup k = none := Lookup.lookup_eq_none_iff.2 (hk ▸ hkeys.1)
      rw [if_pos hk, hnone, Option.bind_none, Option.or_none, Option.bind_some]
      cases hdefault : d.default with
      | none => rw [Option.or_none]
      | some v =>
        dsimp only
        split
        · next hname =>
          obtain ⟨w, hw⟩ := Option.isSome_iff_exists.1 hname
          rw [hk, hw]; rfl
        · next hname =>
          have hget : data.get? k = none := by rw [hk]; simpa [Fields.contains] using hname
          rw [Fields.get?_insert, if_pos hk, hget]; rfl
    · rw [if_neg hk]
      congr 1
      cases d.default with
      | none => rfl
      | some v =>
        dsimp only
        split
        · rfl
        · rw [Fields.get?_insert, if_neg hk]

/-- What a new row holds under a key: the time in its two columns, if the entity keeps it, and else what the
data give, or the default of the field, or the fresh id. -/
def newValue? (e : Entity) (stamp : Stamp) (data : Fields) (k : String) : Option Json :=
  if e.timestamps = true ∧ (k = "createdAt" ∨ k = "updatedAt") then some (.str stamp.time)
  else ((data.get? k).or ((e.field? k).bind (·.default))).or (if k = "id" then some (.str stamp.id) else none)

theorem get?_newRow (e : Entity) (stamp : Stamp) (data : Fields) (k : String) :
    (newRow e stamp data).get? k = newValue? e stamp data k := by
  unfold newRow newValue?
  dsimp only
  rw [← get?_withDefaults, ← get?_withId]
  cases e.timestamps with
  | false => simp
  | true =>
    simp only [↓reduceIte, Fields.get?_insert, true_and]
    by_cases hu : k = "updatedAt"
    · simp [hu]
    · by_cases hc : k = "createdAt" <;> simp [hu, hc]

theorem contains_id_newRow (e : Entity) (stamp : Stamp) (data : Fields) :
    (newRow e stamp data).contains "id" = true := by
  rw [Fields.contains, get?_newRow]
  simp [newValue?]

/-- A new row holds what the data holds, but for the times. -/
theorem get?_newRow_of_contains {data : Fields} {k : String} (h : data.contains k = true)
    (hcreated : k ≠ "createdAt") (hupdated : k ≠ "updatedAt") (e : Entity) (stamp : Stamp) :
    (newRow e stamp data).get? k = data.get? k := by
  obtain ⟨v, hv⟩ := Option.isSome_iff_exists.1 h
  rw [get?_newRow, newValue?, if_neg (by simp [hcreated, hupdated]), hv]
  rfl

/-- What an updated row holds under a key: the time in its column, if the entity keeps it, and else what the
data give, or the old row. -/
def updatedValue? (e : Entity) (stamp : Stamp) (old data : Fields) (k : String) : Option Json :=
  if e.timestamps = true ∧ k = "updatedAt" then some (.str stamp.time) else (data.get? k).or (old.get? k)

theorem get?_updatedRow {data : Fields} (h : data.Sorted) (e : Entity) (stamp : Stamp) (old : Fields)
    (k : String) : (updatedRow e stamp old data).get? k = updatedValue? e stamp old data k := by
  unfold updatedRow updatedValue?
  dsimp only
  rw [← h.get?_union]
  cases e.timestamps with
  | false => simp
  | true => simp [Fields.get?_insert]

theorem contains_updatedRow {old : Fields} {k : String} (h : old.contains k = true)
    (e : Entity) (stamp : Stamp) (data : Fields) :
    (updatedRow e stamp old data).contains k = true := by
  have hu := Fields.contains_union_left h data
  unfold updatedRow
  dsimp only
  split
  · simp [hu]
  · exact hu

/-- An update that gives no value for a column leaves it as it was, but for the time. -/
theorem get?_updatedRow_of_not_contains {data : Fields} {k : String} (h : data.contains k = false)
    (hupdated : k ≠ "updatedAt") (e : Entity) (stamp : Stamp) (old : Fields) :
    (updatedRow e stamp old data).get? k = old.get? k := by
  have hu := Fields.get?_union_of_not_contains h old
  unfold updatedRow
  dsimp only
  split
  · rw [Fields.get?_insert, if_neg hupdated, hu]
  · exact hu

/-! ### Rows in order -/

theorem sorted_withDefaults {data : Fields} (h : data.Sorted) (e : Entity) :
    (withDefaults e data).Sorted := by
  refine List.foldlRecOn (motive := Fields.Sorted) _ _ h fun record hrecord c _ => ?_
  dsimp only
  split
  · split
    · exact hrecord
    · exact hrecord.insert _ _
  · exact hrecord

theorem sorted_withId {record : Fields} (h : record.Sorted) (id : String) : (withId id record).Sorted := by
  unfold withId
  split
  · exact h
  · exact h.insert _ _

theorem sorted_newRow {data : Fields} (h : data.Sorted) (e : Entity) (stamp : Stamp) :
    (newRow e stamp data).Sorted := by
  have hid := sorted_withId (sorted_withDefaults h e) stamp.id
  unfold newRow
  dsimp only
  split
  · exact (hid.insert _ _).insert _ _
  · exact hid

theorem sorted_updatedRow {old : Fields} (h : old.Sorted) (e : Entity) (stamp : Stamp) (data : Fields) :
    (updatedRow e stamp old data).Sorted := by
  have hmerged := h.union data
  unfold updatedRow
  dsimp only
  split
  · exact hmerged.insert _ _
  · exact hmerged

/-- The row with the time of its last change set anew, if it has one. -/
def touched (e : Entity) (stamp : Stamp) (row : Fields) : Fields :=
  if e.timestamps then row.insert "updatedAt" (.str stamp.time) else row

theorem updatedRow_eq_touched {old data : Fields} (h : old.Sorted)
    (hdata : ∀ c ∈ data, old.get? c.1 = some c.2) (e : Entity) (stamp : Stamp) :
    updatedRow e stamp old data = touched e stamp old := by
  rw [updatedRow, h.union_eq_self hdata, touched]

theorem get?_touched {row : Fields} {k : String} (h : k ≠ "updatedAt") (e : Entity) (stamp : Stamp) :
    (touched e stamp row).get? k = row.get? k := by
  unfold touched
  split
  · rw [Fields.get?_insert, if_neg h]
  · rfl

end EntityRest.Store
