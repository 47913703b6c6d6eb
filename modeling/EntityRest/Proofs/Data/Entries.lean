import EntityRest.Proofs.Data.OrdMap
import Mathlib.Data.List.Induction
import Mathlib.Data.List.Nodup

/-! # The entries of an ordered map after a change

Which entries a map has after a key was dropped, renamed or added, and where they stand. Renaming a key
to one that is free leaves the entry in its place (`toList_rename_of_free`). A rename to a key that is taken
drops the entry that was there: which entries are left is said by `toList_rename_perm`, and where they stand by
`toList_tryRename_iff`. The index is taken before the other entry is dropped, so if that one stood in front, the
renamed entry slips behind its successor. -/

namespace EntityRest.OrdMap

variable {κ ν : Type} [DecidableEq κ]

theorem get?_eq_of_perm {m n : OrdMap κ ν} (h : m.toList.Perm n.toList) (k : κ) : m.get? k = n.get? k := by
  refine Option.ext fun v => ?_
  rw [get?_eq_some_iff, get?_eq_some_iff]
  exact h.mem_iff

theorem mem_keys_of_get? {m : OrdMap κ ν} {k : κ} {v : ν} (h : m.get? k = some v) : k ∈ m.keys :=
  List.mem_map.2 ⟨(k, v), get?_eq_some_iff.1 h, rfl⟩

theorem toList_eq_map_keys (m : OrdMap κ ν) (d : ν) : m.toList = m.keys.map fun k => (k, m.getD k d) := by
  rw [keys, List.map_map]
  refine (List.map_id _).symm.trans (List.map_congr_left fun e he => ?_)
  have hget : m.get? e.1 = some e.2 := get?_eq_some_iff.2 he
  exact Prod.ext rfl (by rw [Function.comp_apply, getD, hget]; rfl)

omit [DecidableEq κ] in
theorem nodup_toList (m : OrdMap κ ν) : m.toList.Nodup := List.Nodup.of_map _ m.nodup_keys

theorem toList_erase (m : OrdMap κ ν) (k : κ) : (m.erase k).toList = m.toList.filter (·.1 ≠ k) := rfl

theorem get?_erase (m : OrdMap κ ν) (k l : κ) : (m.erase k).get? l = if l = k then none else m.get? l := by
  refine Option.ext fun v => ?_
  rw [get?_eq_some_iff, toList_erase, List.mem_filter, ← get?_eq_some_iff]
  by_cases hl : l = k <;> simp [hl]

theorem toList_replace (m : OrdMap κ ν) (k : κ) (v : ν) :
    (m.replace k v).toList = m.toList.map fun e => (e.1, if e.1 = k then v else e.2) := rfl

/-! ### Added entries -/

theorem toList_insert_of_not_mem {m : OrdMap κ ν} {k : κ} (h : k ∉ m.keys) (v : ν) :
    (m.insert k v).toList = m.toList ++ [(k, v)] := by
  rw [insert, dif_neg h]

theorem toList_insert_perm (m : OrdMap κ ν) (k : κ) (v : ν) :
    (m.insert k v).toList.Perm (m.toList.filter (·.1 ≠ k) ++ [(k, v)]) := by
  refine (List.perm_ext_iff_of_nodup (nodup_toList _) ?_).2 ?_
  · rw [List.nodup_append]
    refine ⟨m.nodup_toList.filter _, List.nodup_singleton _, ?_⟩
    rintro a ha b hb rfl
    rw [List.mem_singleton.1 hb] at ha
    simp at ha
  · rintro ⟨l, w⟩
    rw [← get?_eq_some_iff, get?_insert, List.mem_append, List.mem_filter, ← get?_eq_some_iff]
    by_cases hl : l = k
    · simp [hl, eq_comm]
    · simp [hl]

theorem get?_insertMany_of_not_mem {m : OrdMap κ ν} {l : List (κ × ν)} {k : κ} (h : k ∉ l.map Prod.fst) :
    (m.insertMany l).get? k = m.get? k := by
  induction l generalizing m with
  | nil => rfl
  | cons e l ih =>
    rw [List.map_cons, List.mem_cons, not_or] at h
    show ((m.insert e.1 e.2).insertMany l).get? k = _
    rw [ih h.2, get?_insert, if_neg h.1]

theorem get?_insertMany {l : List (κ × ν)} (hl : (l.map Prod.fst).Nodup) (m : OrdMap κ ν) (k : κ) :
    (m.insertMany l).get? k = (l.lookup k).or (m.get? k) := by
  induction l generalizing m with
  | nil => rfl
  | cons e l ih =>
    obtain ⟨k', v⟩ := e
    rw [List.map_cons, List.nodup_cons] at hl
    show ((m.insert k' v).insertMany l).get? k = _
    rw [ih hl.2, get?_insert, Lookup.lookup_cons_pair]
    by_cases hk : k = k'
    · have hnone : l.lookup k = none := Lookup.lookup_eq_none_iff.2 (hk ▸ hl.1)
      rw [if_pos hk, if_pos hk, hnone]; rfl
    · rw [if_neg hk, if_neg hk]

theorem get?_union (m n : OrdMap κ ν) (k : κ) : (m.union n).get? k = (n.get? k).or (m.get? k) :=
  get?_insertMany n.nodup_keys m k

/-- Of maps that are put together one after the other the last one that has the key counts. -/
theorem get?_foldl_insertMany {α : Type} {f : α → List (κ × ν)} {l : List α}
    (h : ∀ a ∈ l, ((f a).map Prod.fst).Nodup) (k : κ) :
    (l.foldl (fun m a => m.insertMany (f a)) (∅ : OrdMap κ ν)).get? k =
      l.reverse.findSome? fun a => (f a).lookup k := by
  induction l using List.reverseRecOn with
  | nil => rfl
  | append_singleton l a ih =>
    rw [List.foldl_append, List.foldl_cons, List.foldl_nil, List.reverse_append, List.reverse_singleton,
      List.singleton_append, List.findSome?_cons, get?_insertMany (h a (by simp)),
      ih fun b hb => h b (List.mem_append_left _ hb)]
    cases (f a).lookup k <;> rfl

/-- A list may give a key several times; whichever value counts, the list or the map holds it. -/
theorem mem_of_get?_insertMany {m : OrdMap κ ν} {l : List (κ × ν)} {k : κ} {v : ν}
    (h : (m.insertMany l).get? k = some v) : (k, v) ∈ l ∨ m.get? k = some v := by
  induction l generalizing m with
  | nil => exact .inr h
  | cons e l ih =>
    obtain ⟨k', w⟩ := e
    rcases ih (m := m.insert k' w) h with hmem | hget
    · exact .inl (List.mem_cons_of_mem _ hmem)
    · rw [get?_insert] at hget
      split at hget
      · next hk => cases hget; rw [hk]; exact .inl List.mem_cons_self
      · exact .inr hget

theorem mem_keys_insertMany {m : OrdMap κ ν} {l : List (κ × ν)} {k : κ} :
    k ∈ (m.insertMany l).keys ↔ k ∈ l.map Prod.fst ∨ k ∈ m.keys := by
  induction l generalizing m with
  | nil => simp [insertMany]
  | cons e l ih =>
    show k ∈ ((m.insert e.1 e.2).insertMany l).keys ↔ _
    rw [ih, mem_keys_insert, List.map_cons, List.mem_cons]
    tauto

theorem toList_insertMany_of_disjoint {m : OrdMap κ ν} {l : List (κ × ν)}
    (hl : (l.map Prod.fst).Nodup) (h : ∀ k ∈ l.map Prod.fst, k ∉ m.keys) :
    (m.insertMany l).toList = m.toList ++ l := by
  induction l generalizing m with
  | nil => exact (List.append_nil _).symm
  | cons e l ih =>
    rw [List.map_cons, List.nodup_cons] at hl
    have he : e.1 ∉ m.keys := h e.1 List.mem_cons_self
    have hrest : ∀ k ∈ l.map Prod.fst, k ∉ (m.insert e.1 e.2).keys := by
      intro k hk hmem
      rcases mem_keys_insert.1 hmem with rfl | hmem
      · exact hl.1 hk
      · exact h k (List.mem_cons_of_mem _ hk) hmem
    show ((m.insert e.1 e.2).insertMany l).toList = _
    rw [ih hl.2 hrest, toList_insert_of_not_mem he, List.append_assoc]
    rfl

theorem toList_insertMany_perm (m : OrdMap κ ν) {l : List (κ × ν)} (hl : (l.map Prod.fst).Nodup) :
    (m.insertMany l).toList.Perm (m.toList.filter (·.1 ∉ l.map Prod.fst) ++ l) := by
  induction l generalizing m with
  | nil =>
    have hall : m.toList.filter (·.1 ∉ ([] : List (κ × ν)).map Prod.fst) = m.toList :=
      List.filter_eq_self.2 fun e _ => by simp
    rw [hall, List.append_nil]
    exact .refl _
  | cons e l ih =>
    rw [List.map_cons, List.nodup_cons] at hl
    have hnew : [e].filter (·.1 ∉ l.map Prod.fst) = [e] := by simpa using hl.1
    have hfilter : (m.toList.filter (·.1 ≠ e.1)).filter (·.1 ∉ l.map Prod.fst) =
        m.toList.filter (·.1 ∉ (e :: l).map Prod.fst) := by
      rw [List.filter_filter]
      refine List.filter_congr fun a _ => ?_
      rw [List.map_cons, ← Bool.decide_and]
      exact decide_eq_decide.2 (by rw [List.mem_cons, not_or, and_comm])
    calc (m.insertMany (e :: l)).toList
      _ = ((m.insert e.1 e.2).insertMany l).toList := rfl
      _ |>.Perm ((m.insert e.1 e.2).toList.filter (·.1 ∉ l.map Prod.fst) ++ l) := ih _ hl.2
      _ |>.Perm ((m.toList.filter (·.1 ≠ e.1) ++ [e]).filter (·.1 ∉ l.map Prod.fst) ++ l) :=
        ((m.toList_insert_perm e.1 e.2).filter _).append_right l
      _ = m.toList.filter (·.1 ∉ (e :: l).map Prod.fst) ++ e :: l := by
        rw [List.filter_append, hfilter, hnew, List.append_assoc]; rfl

/-! ### Renamed entries -/

omit [DecidableEq κ] in
theorem exists_append_of_mem_keys {m : OrdMap κ ν} {k : κ} (h : k ∈ m.keys) :
    ∃ a v b, m.toList = a ++ (k, v) :: b ∧ k ∉ a.map Prod.fst ∧ k ∉ b.map Prod.fst := by
  obtain ⟨⟨l, v⟩, hmem, rfl⟩ := List.mem_map.1 h
  obtain ⟨a, b, hab⟩ := List.append_of_mem hmem
  have hnodup := m.nodup_keys
  rw [hab, List.map_append, List.map_cons] at hnodup
  obtain ⟨hl, -⟩ := List.nodup_cons.1 (List.perm_middle.nodup_iff.1 hnodup)
  rw [List.mem_append, not_or] at hl
  exact ⟨a, v, b, hab, hl⟩

theorem filter_ne_of_not_mem {k : κ} {l : List (κ × ν)} (h : k ∉ l.map Prod.fst) :
    l.filter (·.1 ≠ k) = l :=
  List.filter_eq_self.2 fun e he => decide_eq_true fun heq => h (List.mem_map.2 ⟨e, he, heq⟩)

/-- What renaming `k` to `k'` makes of an entry. -/
def moved (k k' : κ) (e : κ × ν) : Option (κ × ν) :=
  if e.1 = k then some (k', e.2) else if e.1 = k' then none else some e

theorem filterMap_moved {k k' : κ} {l : List (κ × ν)} (h : k ∉ l.map Prod.fst) :
    l.filterMap (moved k k') = l.filter (·.1 ≠ k') := by
  rw [← List.filterMap_eq_filter]
  refine List.filterMap_congr fun e he => ?_
  have hne : e.1 ≠ k := fun heq => h (List.mem_map.2 ⟨e, he, heq⟩)
  rw [moved, if_neg hne]
  by_cases hk' : e.1 = k' <;> simp [hk', Option.guard]

/-- The renamed entry stands behind as many of the entries that are left as before. -/
theorem toList_rename_append {m : OrdMap κ ν} {k : κ} {v : ν} {a b : List (κ × ν)} (k' : κ)
    (h : m.toList = a ++ (k, v) :: b) (ha : k ∉ a.map Prod.fst) (hb : k ∉ b.map Prod.fst) :
    let rest := (a ++ b).filter (·.1 ≠ k')
    (m.rename k k').toList = rest.take a.length ++ (k', v) :: rest.drop a.length := by
  intro rest
  have hget : m.get? k = some v := get?_eq_some_iff.2 (by rw [h]; simp)
  have hindex : m.indexOf k = a.length := by
    rw [indexOf, keys, h, List.map_append, List.map_cons, List.idxOf_append_of_notMem ha,
      List.idxOf_cons_self, List.length_map, Nat.add_zero]
  have herase : ((m.erase k).erase k').toList = rest := by
    rw [toList_erase, toList_erase, h, List.filter_append, List.filter_cons_of_neg (by simp),
      filter_ne_of_not_mem ha, filter_ne_of_not_mem hb]
  rw [rename, tryRename, hget]
  show ((m.erase k).erase k').toList.take (m.indexOf k) ++ (k', v) ::
    ((m.erase k).erase k').toList.drop (m.indexOf k) = _
  rw [herase, hindex]

theorem filterMap_moved_append {k : κ} {v : ν} {a b : List (κ × ν)} (k' : κ) (ha : k ∉ a.map Prod.fst)
    (hb : k ∉ b.map Prod.fst) :
    (a ++ (k, v) :: b).filterMap (moved k k') =
      a.filter (·.1 ≠ k') ++ (k', v) :: b.filter (·.1 ≠ k') := by
  have hmoved : moved k k' (k, v) = some (k', v) := if_pos rfl
  rw [List.filterMap_append, filterMap_moved ha, List.filterMap_cons_some hmoved, filterMap_moved hb]

theorem toList_rename_perm {m : OrdMap κ ν} {k : κ} (h : k ∈ m.keys) (k' : κ) :
    (m.rename k k').toList.Perm (m.toList.filterMap (moved k k')) := by
  obtain ⟨a, v, b, hab, ha, hb⟩ := exists_append_of_mem_keys h
  rw [toList_rename_append k' hab ha hb, hab, filterMap_moved_append k' ha hb]
  refine List.perm_middle.trans (.trans ?_ List.perm_middle.symm)
  rw [List.take_append_drop, List.filter_append]

theorem toList_rename_of_free {m : OrdMap κ ν} {k k' : κ} (h : k ∈ m.keys)
    (hfree : k' ∈ m.keys → k' = k) :
    (m.rename k k').toList = m.toList.filterMap (moved k k') := by
  obtain ⟨a, v, b, hab, ha, hb⟩ := exists_append_of_mem_keys h
  have hkeep : ∀ l : List (κ × ν), l ⊆ m.toList → k ∉ l.map Prod.fst → l.filter (·.1 ≠ k') = l := by
    intro l hsub hl
    refine filter_ne_of_not_mem fun hk' => ?_
    have hmem : k' ∈ m.keys := List.map_subset Prod.fst hsub hk'
    exact hl (hfree hmem ▸ hk')
  have hsuba : a ⊆ m.toList := by rw [hab]; exact List.subset_append_left _ _
  have hsubb : b ⊆ m.toList := by
    rw [hab]; exact fun e he => List.mem_append_right _ (List.mem_cons_of_mem _ he)
  rw [toList_rename_append k' hab ha hb, hab, filterMap_moved_append k' ha hb, List.filter_append,
    hkeep a hsuba ha, hkeep b hsubb hb, List.take_left, List.drop_left]

theorem length_filter_ne_of_mem {k : κ} {l : List (κ × ν)} (hl : (l.map Prod.fst).Nodup)
    (h : k ∈ l.map Prod.fst) : (l.filter (·.1 ≠ k)).length + 1 = l.length := by
  induction l with
  | nil => cases h
  | cons e l ih =>
    rw [List.map_cons, List.nodup_cons] at hl
    rcases List.mem_cons.1 h with rfl | h
    · rw [List.filter_cons_of_neg (by simp), filter_ne_of_not_mem hl.1, List.length_cons]
    · have hne : e.1 ≠ k := fun heq => hl.1 (heq ▸ h)
      rw [List.filter_cons_of_pos (by simpa using hne), List.length_cons, List.length_cons, ih hl.2 h]

section Overwriting

variable {m : OrdMap κ ν} {k k' : κ} {v : ν} {a b : List (κ × ν)}

omit [DecidableEq κ] in
theorem keys_apart_of_append (h : m.toList = a ++ (k, v) :: b) :
    (a.map Prod.fst).Nodup ∧ k ∉ a.map Prod.fst ∧ k ∉ b.map Prod.fst ∧
      ∀ l ∈ a.map Prod.fst, l ∉ b.map Prod.fst := by
  have hnodup := m.nodup_keys
  rw [h, List.map_append, List.map_cons] at hnodup
  obtain ⟨ha, hkb, hdisjoint⟩ := List.nodup_append.1 hnodup
  refine ⟨ha, fun hmem => hdisjoint k hmem k List.mem_cons_self rfl, (List.nodup_cons.1 hkb).1, ?_⟩
  exact fun l hl hmem => hdisjoint l hl l (List.mem_cons_of_mem _ hmem) rfl

/-- The entry that the rename drops stood in front: the index is one too high for the entries that are left. -/
theorem toList_rename_of_mem_front (h : m.toList = a ++ (k, v) :: b) (hk' : k' ∈ a.map Prod.fst) :
    (m.rename k k').toList = a.filter (·.1 ≠ k') ++ (b.take 1 ++ (k', v) :: b.drop 1) := by
  obtain ⟨hnodup, ha, hb, hapart⟩ := keys_apart_of_append h
  rw [toList_rename_append k' h ha hb, List.filter_append, filter_ne_of_not_mem (hapart k' hk'),
    ← length_filter_ne_of_mem hnodup hk', List.take_length_add_append, List.drop_length_add_append,
    List.append_assoc]

theorem toList_rename_of_not_mem_front (h : m.toList = a ++ (k, v) :: b) (hk' : k' ∉ a.map Prod.fst) :
    (m.rename k k').toList = a.filter (·.1 ≠ k') ++ (k', v) :: b.filter (·.1 ≠ k') := by
  obtain ⟨-, ha, hb, -⟩ := keys_apart_of_append h
  rw [toList_rename_append k' h ha hb, List.filter_append, filter_ne_of_not_mem hk', List.take_left,
    List.drop_left]

/-- Renaming tells whether the key was there, and changes nothing if it was not. A key that was there leaves its
value in its place, and an entry that had the new key is dropped, unless that one stood in front and there are
entries behind: then the value has slipped behind the first of these. -/
theorem toList_tryRename_iff (m : OrdMap κ ν) (k k' : κ) :
    (k ∉ m.keys → m.tryRename k k' = (false, m)) ∧
      ∀ a v b, m.toList = a ++ (k, v) :: b →
        (m.tryRename k k').1 = true ∧
          ((m.tryRename k k').2.toList = a.filter (·.1 ≠ k') ++ (k', v) :: b.filter (·.1 ≠ k') ↔
            k' ∉ a.map Prod.fst ∨ b = []) ∧
          ∀ next rest, k' ∈ a.map Prod.fst → b = next :: rest →
            (m.tryRename k k').2.toList = a.filter (·.1 ≠ k') ++ next :: (k', v) :: rest := by
  refine ⟨fun h => tryRename_of_get?_eq_none (get?_eq_none_iff.2 h) k', fun a v b h => ?_⟩
  have hget : m.get? k = some v := get?_eq_some_iff.2 (by rw [h]; simp)
  refine ⟨by rw [tryRename, hget], ⟨fun heq => ?_, ?_⟩, ?_⟩
  · by_contra hnot
    obtain ⟨hk', hb⟩ := not_or.1 hnot
    rw [Classical.not_not] at hk'
    obtain ⟨next, rest, rfl⟩ := List.exists_cons_of_ne_nil hb
    have hmoved := toList_rename_of_mem_front h hk'
    rw [rename, heq] at hmoved
    -- the first entry behind would have the new key, which stands in front
    obtain ⟨hnext, -⟩ := List.cons.inj (List.append_cancel_left hmoved)
    obtain ⟨-, -, -, hapart⟩ := keys_apart_of_append h
    exact hapart k' hk' (by simp [← hnext])
  · rintro (hk' | rfl)
    · exact toList_rename_of_not_mem_front h hk'
    · by_cases hk' : k' ∈ a.map Prod.fst
      · exact toList_rename_of_mem_front h hk'
      · exact toList_rename_of_not_mem_front h hk'
  · rintro next rest hk' rfl
    exact toList_rename_of_mem_front h hk'

/-- Sessions that are renamed to users slip behind the tokens, and tokens, with nothing behind them, stay last. -/
theorem toList_tryRename_iff_tables :
    let m : OrdMap String Nat := OrdMap.ofList [("user", 1), ("session", 2), ("token", 3)]
    (m.tryRename "session" "user").2.toList = [("token", 3), ("user", 2)] ∧
      (m.tryRename "token" "user").2.toList = [("session", 2), ("user", 3)] ∧
      m.tryRename "invoice" "user" = (false, m) := by
  intro m
  obtain ⟨-, hsession⟩ := toList_tryRename_iff m "session" "user"
  obtain ⟨-, htoken⟩ := toList_tryRename_iff m "token" "user"
  obtain ⟨-, -, hmoved⟩ := hsession [("user", 1)] 2 [("token", 3)] rfl
  obtain ⟨-, hkept, -⟩ := htoken [("user", 1), ("session", 2)] 3 [] rfl
  refine ⟨hmoved ("token", 3) [] (by decide) rfl, hkept.2 (.inr rfl), ?_⟩
  exact (toList_tryRename_iff m "invoice" "user").1 (by decide)

end Overwriting

theorem rename_self (m : OrdMap κ ν) (k : κ) : m.rename k k = m := by
  by_cases h : k ∈ m.keys
  · have hmoved : moved k k = (some : κ × ν → Option (κ × ν)) := by
      funext ⟨l, v⟩
      by_cases hl : l = k <;> simp [moved, hl]
    refine ext ?_
    rw [toList_rename_of_free h fun _ => rfl, hmoved, List.filterMap_some]
  · exact rename_of_get?_eq_none (get?_eq_none_iff.2 h) k

theorem moved_eq_some_iff {k k' l : κ} {w : ν} {e : κ × ν} :
    moved k k' e = some (l, w) ↔ e = (k, w) ∧ l = k' ∨ e = (l, w) ∧ l ≠ k ∧ l ≠ k' := by
  obtain ⟨l', w'⟩ := e
  unfold moved
  by_cases hk : l' = k
  · subst hk; grind
  · by_cases hk' : l' = k' <;> grind

theorem get?_rename {m : OrdMap κ ν} {k : κ} {v : ν} (h : m.get? k = some v) (k' l : κ) :
    (m.rename k k').get? l = if l = k' then some v else if l = k then none else m.get? l := by
  refine Option.ext fun w => ?_
  have hsource : (∃ e ∈ m.toList, moved k k' e = some (l, w)) ↔
      m.get? k = some w ∧ l = k' ∨ m.get? l = some w ∧ l ≠ k ∧ l ≠ k' := by
    simp only [moved_eq_some_iff, and_or_left, exists_or, get?_eq_some_iff]
    constructor
    · rintro (⟨e, he, rfl, hl⟩ | ⟨e, he, rfl, hl⟩)
      · exact .inl ⟨he, hl⟩
      · exact .inr ⟨he, hl⟩
    · rintro (⟨he, hl⟩ | ⟨he, hl⟩)
      · exact .inl ⟨_, he, rfl, hl⟩
      · exact .inr ⟨_, he, rfl, hl⟩
  rw [get?_eq_some_iff, (toList_rename_perm (mem_keys_of_get? h) k').mem_iff, List.mem_filterMap,
    hsource, h]
  by_cases hk' : l = k'
  · simp [hk']
  · by_cases hk : l = k
    · subst hk; simp [hk']
    · simp [hk, hk']

end EntityRest.OrdMap
