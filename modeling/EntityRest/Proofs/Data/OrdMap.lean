import EntityRest.Data.OrdMap

/-! # Reading an ordered map after a change

What `get?` and `keys` give after `insert` and `mapEntries`, and how `get?` stands to the entries.
Everything else that is proved about maps goes through these equations; no proof opens the entry list
again. -/

namespace EntityRest.OrdMap

variable {κ ν μ : Type}

@[simp] theorem keys_mapEntries (f : κ → ν → μ) (m : OrdMap κ ν) : (m.mapEntries f).keys = m.keys := by
  simp [keys, mapEntries, List.map_map, Function.comp_def]

variable [DecidableEq κ]

theorem lookup_map_snd (f : κ → ν → μ) (l : List (κ × ν)) (k : κ) :
    (l.map fun e => (e.1, f e.1 e.2)).lookup k = (l.lookup k).map (f k) := by
  induction l with
  | nil => rfl
  | cons e l ih =>
    obtain ⟨k', v⟩ := e
    rw [List.map_cons, Lookup.lookup_cons_pair, Lookup.lookup_cons_pair, ih]
    split
    · next h => rw [h]; rfl
    · rfl

@[simp] theorem get?_mapEntries (f : κ → ν → μ) (m : OrdMap κ ν) (k : κ) :
    (m.mapEntries f).get? k = (m.get? k).map (f k) :=
  lookup_map_snd f m.toList k

theorem lookup_eq_some_iff {l : List (κ × ν)} (h : (l.map Prod.fst).Nodup) {k : κ} {v : ν} :
    l.lookup k = some v ↔ (k, v) ∈ l := by
  refine ⟨Lookup.mem_of_lookup_eq_some, fun hm => ?_⟩
  induction l with
  | nil => simp at hm
  | cons e l ih =>
    obtain ⟨k', w⟩ := e
    rw [List.map_cons, List.nodup_cons] at h
    rw [Lookup.lookup_cons_pair]
    rcases List.mem_cons.1 hm with heq | hm
    · cases heq; rw [if_pos rfl]
    · have hne : k ≠ k' := fun hk => h.1 (List.mem_map.2 ⟨(k, v), hm, hk⟩)
      rw [if_neg hne, ih h.2 hm]

theorem get?_eq_some_iff {m : OrdMap κ ν} {k : κ} {v : ν} : m.get? k = some v ↔ (k, v) ∈ m.toList :=
  lookup_eq_some_iff m.nodup_keys

theorem lookup_append (l l' : List (κ × ν)) (k : κ) :
    (l ++ l').lookup k = (l.lookup k).or (l'.lookup k) := by
  induction l with
  | nil => rfl
  | cons e l ih =>
    obtain ⟨k', v⟩ := e
    rw [List.cons_append, Lookup.lookup_cons_pair, Lookup.lookup_cons_pair, ih]
    split <;> rfl

theorem get?_insert (m : OrdMap κ ν) (k l : κ) (v : ν) :
    (m.insert k v).get? l = if l = k then some v else m.get? l := by
  unfold insert
  by_cases hk : k ∈ m.keys
  · rw [dif_pos hk, replace, get?_mapEntries]
    have hsome : (m.get? k).isSome := contains_iff_mem_keys.2 hk
    by_cases hl : l = k
    · subst hl
      obtain ⟨w, hw⟩ := Option.isSome_iff_exists.1 hsome
      simp [hw]
    · simp [hl]
  · rw [dif_neg hk]
    show (m.toList ++ [(k, v)]).lookup l = _
    have hnone : m.toList.lookup k = none := get?_eq_none_iff.2 hk
    rw [lookup_append, Lookup.lookup_cons_pair, List.lookup_nil]
    by_cases hl : l = k
    · rw [hl, if_pos rfl, if_pos rfl, hnone]; rfl
    · rw [if_neg hl, if_neg hl, Option.or_none]; rfl

theorem mem_keys_insert {m : OrdMap κ ν} {k l : κ} {v : ν} :
    l ∈ (m.insert k v).keys ↔ l = k ∨ l ∈ m.keys := by
  rw [← contains_iff_mem_keys, ← contains_iff_mem_keys, contains, contains, get?_insert]
  by_cases h : l = k <;> simp [h]

theorem getD_insert (m : OrdMap κ ν) (k l : κ) (v d : ν) :
    (m.insert k v).getD l d = if l = k then v else m.getD l d := by
  rw [getD, get?_insert, apply_ite (Option.getD · d)]; rfl

end EntityRest.OrdMap
