import EntityRest.Http.Headers
import EntityRest.Proofs.Data.OrdMap

/-! # Merging and copying headers

Which values each name has after a merge. The loop over the staged values is read off group by group: the
first value of a group says whether the name is free, and from then on the others follow it
(`get?_foldl_group`). A name that a group has added counts as taken for all that follows, but no other group
has it (`get?_merge`).

Headers that are copied to others value by value come behind the values that these have already
(`valuesUnder_foldl_pairs`). -/

namespace EntityRest.Headers

variable {m : Merge} {name key : String}

theorem get?_addUnder (h : Headers) (key value name : String) :
    (h.addUnder key value).get? name =
      if name = key then some ((h.get? key).elim (.single value) (·.add value)) else h.get? name :=
  OrdMap.get?_insert _ _ _ _

/-! ### The values of one name -/

theorem take_follower_of_none (hm : m.copying = none) (value : String) : m.take (none, value) = m := by
  obtain ⟨h, copying⟩ := m
  cases hm
  rfl

theorem take_follower (hm : m.copying = some key) (value : String) :
    m.take (none, value) = ⟨m.headers.addUnder key value, some key⟩ := by
  obtain ⟨h, copying⟩ := m
  cases hm
  rfl

/-- Where no name is being copied, values without a name change nothing. -/
theorem foldl_followers_of_none (hm : m.copying = none) (more : List String) :
    (more.map ((none : Option String), ·)).foldl Merge.take m = m := by
  induction more with
  | nil => rfl
  | cons value more ih => rw [List.map_cons, List.foldl_cons, take_follower_of_none hm, ih]

/-- Where a name is being copied, values without a name go to the end of its values. -/
theorem get?_foldl_followers {vs : HeaderValues} (hm : m.copying = some key)
    (hvs : m.headers.get? key = some vs) (more : List String) :
    ((more.map ((none : Option String), ·)).foldl Merge.take m).headers.get? name =
      if name = key then some { vs with more := vs.more ++ more } else m.headers.get? name := by
  induction more generalizing m vs with
  | nil =>
    rw [List.append_nil]
    split
    · next h => rw [h]; exact hvs
    · rfl
  | cons value more ih =>
    have hadded : (m.headers.addUnder key value).get? key = some (vs.add value) := by
      rw [get?_addUnder, if_pos rfl, hvs]
      rfl
    rw [List.map_cons, List.foldl_cons, take_follower hm, ih rfl hadded]
    by_cases hname : name = key
    · rw [if_pos hname, if_pos hname, HeaderValues.add, List.append_assoc]
      rfl
    · rw [if_neg hname, if_neg hname, get?_addUnder, if_neg hname]

theorem get?_foldl_group (m : Merge) (key : String) (vs : HeaderValues) (name : String) :
    ((group key vs).foldl Merge.take m).headers.get? name =
      (m.headers.get? name).or (if name = key then some vs else none) := by
  rw [group, List.foldl_cons]
  cases hkey : m.headers.get? key with
  | some old =>
    have htaken : m.take (some key, vs.first) = ⟨m.headers, none⟩ := by
      simp [Merge.take, OrdMap.contains, hkey]
    rw [htaken, foldl_followers_of_none rfl]
    by_cases hname : name = key
    · subst hname
      rw [hkey, Option.some_or]
    · rw [if_neg hname, Option.or_none]
  | none =>
    have hfree : m.take (some key, vs.first) = ⟨m.headers.addUnder key vs.first, some key⟩ := by
      simp [Merge.take, OrdMap.contains, hkey]
    have hfirst : (m.headers.addUnder key vs.first).get? key = some (.single vs.first) := by
      rw [get?_addUnder, if_pos rfl, hkey]
      rfl
    rw [hfree, get?_foldl_followers rfl hfirst]
    by_cases hname : name = key
    · subst hname
      rw [if_pos rfl, if_pos rfl, hkey, Option.none_or]
      rfl
    · rw [if_neg hname, if_neg hname, Option.or_none, get?_addUnder, if_neg hname]

/-! ### All values -/

theorem get?_foldl_groups (m : Merge) (l : List (String × HeaderValues)) (name : String) :
    ((l.flatMap fun e => group e.1 e.2).foldl Merge.take m).headers.get? name =
      (m.headers.get? name).or (l.lookup name) := by
  induction l generalizing m with
  | nil => exact (Option.or_none).symm
  | cons e l ih =>
    obtain ⟨key, vs⟩ := e
    rw [List.flatMap_cons, List.foldl_append, ih, get?_foldl_group, Lookup.lookup_cons_pair, Option.or_assoc]
    by_cases hname : name = key
    · rw [if_pos hname, if_pos hname, Option.some_or]
    · rw [if_neg hname, if_neg hname, Option.none_or]

/-- A merged name has the values that the target has for it, or else those that are staged for it. -/
theorem get?_merge (target staged : Headers) (name : String) :
    (target.merge staged).get? name = (target.get? name).or (staged.get? name) :=
  get?_foldl_groups ⟨target, none⟩ staged.toList name

/-! ### Copied values -/

/-- The values that are kept under a name. -/
def valuesUnder (h : Headers) (key : String) : List String := (h.get? key).elim [] HeaderValues.toList

theorem valuesUnder_addUnder (h : Headers) (key value name : String) :
    (h.addUnder key value).valuesUnder name = h.valuesUnder name ++ if name = key then [value] else [] := by
  rw [valuesUnder, get?_addUnder, valuesUnder]
  by_cases hname : name = key
  · subst hname
    rw [if_pos rfl, if_pos rfl]
    cases h.get? name <;> rfl
  · rw [if_neg hname, if_neg hname, List.append_nil]

theorem valuesUnder_foldl_addUnder (h : Headers) (l : List (String × String)) (name : String) :
    (l.foldl (fun h e => h.addUnder e.1 e.2) h).valuesUnder name =
      h.valuesUnder name ++ (l.filter (·.1 = name)).map Prod.snd := by
  induction l generalizing h with
  | nil => exact (List.append_nil _).symm
  | cons e l ih =>
    rw [List.foldl_cons, ih, valuesUnder_addUnder, List.append_assoc]
    by_cases hname : e.1 = name
    · rw [if_pos hname.symm, List.filter_cons_of_pos (by simpa using hname)]
      rfl
    · rw [if_neg (Ne.symm hname), List.filter_cons_of_neg (by simpa using hname), List.nil_append]

/-- Of all values of all names, those of one name are what is kept under it. -/
theorem map_filter_pairs (h : Headers) (name : String) :
    (h.pairs.filter (·.1 = name)).map Prod.snd = h.valuesUnder name := by
  have hkeys := h.nodup_keys
  unfold pairs valuesUnder OrdMap.get?
  generalize h.toList = l at hkeys
  induction l with
  | nil => rfl
  | cons e l ih =>
    obtain ⟨key, vs⟩ := e
    rw [List.map_cons, List.nodup_cons] at hkeys
    rw [List.flatMap_cons, List.filter_append, List.map_append, ih hkeys.2, Lookup.lookup_cons_pair]
    by_cases hname : name = key
    · subst hname
      have hnone : l.lookup name = none := Lookup.lookup_eq_none_iff.2 hkeys.1
      rw [hnone, if_pos rfl]
      simp [List.filter_map, Function.comp_def]
    · rw [if_neg hname]
      simp [List.filter_map, Function.comp_def, Ne.symm hname]

theorem valuesUnder_foldl_pairs (own h : Headers) (name : String) :
    (h.pairs.foldl (fun h e => h.addUnder e.1 e.2) own).valuesUnder name =
      own.valuesUnder name ++ h.valuesUnder name := by
  rw [valuesUnder_foldl_addUnder, map_filter_pairs]

end EntityRest.Headers
