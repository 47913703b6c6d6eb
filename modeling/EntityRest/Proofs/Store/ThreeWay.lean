import EntityRest.Proofs.Store.Commit
import Mathlib.Data.List.Nodup

/-! # A commit is a merge by id

In tables whose rows have ids of different texts, a commit decides for each id which version of its row
counts: that of the private copy where the transaction made a difference, having no row being a version
too, and the live one where it made none (`commit_threeWay`).

The pass over the live table and the loop over the private copy come down to two facts. Putting a row
(`putRow_cases`) touches no row of another key, so what is found under a key after the loop is the row
that was carried for it, or else what was found before (`rowOf?_foldl_carryRow`). And rows that are
untouched are neither dropped by the pass nor met by the loop (`filter_untouched_commitRows`). -/

namespace EntityRest.Store

/-- Each row of a table has an id, and the texts of the ids are different. -/
structure Keyed (rows : List Fields) : Prop where
  hasKey : ∀ row ∈ rows, (rowKey? row).isSome = true
  nodup : (rows.map rowKey?).Nodup

/-- Whether the row of a key is another one in `changed` than in `base`, or in one of them only. -/
def differs (base changed : List Fields) (key : String) : Bool :=
  match rowOf? base key, rowOf? changed key with
  | none, none => false
  | some old, some row => !Json.sameFields old row
  | _, _ => true

/-- Whether `base` and `changed` do not differ under the key of a row. -/
def untouched (base changed : List Fields) (row : Fields) : Bool :=
  (rowKey? row).elim true fun key => !differs base changed key

variable {base changed live rows : List Fields} {row r : Fields} {key k : String}

/-! ### Looking a key up -/

theorem rowOf?_eq_none_iff : rowOf? rows key = none ↔ ∀ row ∈ rows, rowKey? row ≠ some key := by
  unfold rowOf?
  simp [List.find?_eq_none]

theorem mem_of_rowOf?_eq_some (h : rowOf? rows key = some row) : row ∈ rows ∧ rowKey? row = some key :=
  ⟨List.mem_reverse.1 (List.mem_of_find?_eq_some h), by simpa using List.find?_some h⟩

theorem rowOf?_eq_some_iff (hnd : (rows.map rowKey?).Nodup) :
    rowOf? rows key = some row ↔ row ∈ rows ∧ rowKey? row = some key := by
  refine ⟨mem_of_rowOf?_eq_some, fun ⟨hmem, hkey⟩ => ?_⟩
  cases hfind : rowOf? rows key with
  | none => exact absurd hkey (rowOf?_eq_none_iff.1 hfind row hmem)
  | some row' =>
    obtain ⟨hmem', hkey'⟩ := mem_of_rowOf?_eq_some hfind
    rw [List.inj_on_of_nodup_map hnd hmem' hmem (hkey'.trans hkey.symm)]

/-- Two tables with the same rows under a key have the same row there. -/
theorem rowOf?_congr {rows' : List Fields} (hnd : (rows.map rowKey?).Nodup)
    (hnd' : (rows'.map rowKey?).Nodup)
    (h : ∀ r, rowKey? r = some key → (r ∈ rows ↔ r ∈ rows')) : rowOf? rows key = rowOf? rows' key := by
  refine Option.ext fun r => ?_
  rw [rowOf?_eq_some_iff hnd, rowOf?_eq_some_iff hnd']
  exact ⟨fun ⟨hr, hk⟩ => ⟨(h r hk).1 hr, hk⟩, fun ⟨hr, hk⟩ => ⟨(h r hk).2 hr, hk⟩⟩

theorem nodup_filter (hnd : (rows.map rowKey?).Nodup) (p : Fields → Bool) :
    ((rows.filter p).map rowKey?).Nodup :=
  hnd.sublist (List.filter_sublist.map rowKey?)

/-! ### Putting one row -/

/-- A row takes the place of the first one with its key, or comes last. -/
theorem putRow_cases (rows : List Fields) (key : String) (row : Fields) :
    (∃ l₁ old l₂, rows = l₁ ++ old :: l₂ ∧ rowKey? old = some key ∧
      putRow rows key row = l₁ ++ row :: l₂) ∨
    (∀ r ∈ rows, rowKey? r ≠ some key) ∧ putRow rows key row = rows ++ [row] := by
  unfold putRow
  dsimp only
  split
  · next hi =>
    have hkey : rowKey? rows[rows.findIdx fun r => rowKey? r = some key] = some key := by
      simpa using List.findIdx_getElem (w := hi)
    refine .inl ⟨rows.take _, _, rows.drop _, ?_, hkey,
      List.set_eq_take_append_cons_drop.trans (if_pos hi)⟩
    rw [← List.drop_eq_getElem_cons hi, List.take_append_drop]
  · next hi =>
    exact .inr ⟨fun r hr hkey => hi (List.findIdx_lt_length.2 ⟨r, hr, by simpa using hkey⟩), rfl⟩

theorem map_rowKey?_putRow (rows : List Fields) (hrow : rowKey? row = some key) :
    (putRow rows key row).map rowKey? = rows.map rowKey? ∨
      some key ∉ rows.map rowKey? ∧ (putRow rows key row).map rowKey? = rows.map rowKey? ++ [some key] := by
  rcases putRow_cases rows key row with ⟨l₁, old, l₂, rfl, hold, heq⟩ | ⟨hnew, heq⟩
  · left; rw [heq]; simp [hold, hrow]
  · right; rw [heq]; exact ⟨by simpa using hnew, by simp [hrow]⟩

theorem nodup_putRow (hnd : (rows.map rowKey?).Nodup) (hrow : rowKey? row = some key) :
    ((putRow rows key row).map rowKey?).Nodup := by
  rcases map_rowKey?_putRow rows hrow with heq | ⟨hnew, heq⟩
  · rw [heq]; exact hnd
  · rw [heq, (List.perm_append_singleton _ _).nodup_iff, List.nodup_cons]; exact ⟨hnew, hnd⟩

theorem mem_putRow (h : r ∈ putRow rows key row) : r = row ∨ r ∈ rows := by
  rcases putRow_cases rows key row with ⟨l₁, old, l₂, rfl, -, heq⟩ | ⟨-, heq⟩ <;>
  · rw [heq] at h
    simp only [List.mem_append, List.mem_cons, List.not_mem_nil, or_false] at h ⊢
    tauto

/-- Rows of other keys stay, in their order. -/
theorem filter_putRow {p : Fields → Bool} (hp : ∀ r, rowKey? r = some key → p r = false)
    (hrow : rowKey? row = some key) : (putRow rows key row).filter p = rows.filter p := by
  rcases putRow_cases rows key row with ⟨l₁, old, l₂, rfl, hold, heq⟩ | ⟨-, heq⟩
  · rw [heq]; simp [hp row hrow, hp old hold]
  · rw [heq]; simp [hp row hrow]

theorem rowOf?_putRow (hnd : (rows.map rowKey?).Nodup) (hrow : rowKey? row = some key) (k : String) :
    rowOf? (putRow rows key row) k = if k = key then some row else rowOf? rows k := by
  have hnd' := nodup_putRow hnd hrow
  split
  · next hk =>
    subst hk
    refine (rowOf?_eq_some_iff hnd').2 ⟨?_, hrow⟩
    rcases putRow_cases rows k row with ⟨l₁, old, l₂, -, -, heq⟩ | ⟨-, heq⟩ <;> simp [heq]
  · next hk =>
    refine rowOf?_congr hnd' hnd fun r hr => ?_
    have hfilter : (putRow rows key row).filter (fun r => decide (rowKey? r = some k)) =
        rows.filter fun r => decide (rowKey? r = some k) :=
      filter_putRow (fun r hr => by simpa [hr] using Ne.symm hk) hrow
    have hmem := congrArg (r ∈ ·) hfilter
    simpa [hr] using hmem

/-! ### The loop over the private copy -/

theorem rowKey?_of_carriedKey? (h : carriedKey? base row = some key) : rowKey? row = some key := by
  unfold carriedKey? at h
  split at h
  · cases h
  · next hkey =>
    split at h
    · split at h <;> cases h; exact hkey
    · cases h; exact hkey

theorem nodup_carryRow (hnd : (rows.map rowKey?).Nodup) (base : List Fields) (row : Fields) :
    ((carryRow base rows row).map rowKey?).Nodup := by
  rw [carryRow_eq]
  split
  · next hc => exact nodup_putRow hnd (rowKey?_of_carriedKey? hc)
  · exact hnd

theorem rowOf?_carryRow (hnd : (rows.map rowKey?).Nodup) (base : List Fields) (row : Fields)
    (k : String) : rowOf? (carryRow base rows row) k =
      if carriedKey? base row = some k then some row else rowOf? rows k := by
  rw [carryRow_eq]
  cases hc : carriedKey? base row with
  | none => simp
  | some key =>
    dsimp only
    rw [rowOf?_putRow hnd (rowKey?_of_carriedKey? hc)]
    simp [eq_comm]

/-- The row that the loop carries over under a key. -/
def carriedRow? (base changed : List Fields) (key : String) : Option Fields :=
  (rowOf? changed key).filter fun row => carriedKey? base row = some key

theorem rowOf?_cons (h : ∀ r ∈ rows, rowKey? r ≠ rowKey? row) (key : String) :
    rowOf? (row :: rows) key = if rowKey? row = some key then some row else rowOf? rows key := by
  unfold rowOf?
  rw [List.reverse_cons, List.find?_append]
  split
  · next hkey =>
    have hnone : (rows.reverse.find? fun r => decide (rowKey? r = some key)) = none :=
      rowOf?_eq_none_iff.2 fun r hr => hkey ▸ h r hr
    rw [hnone]; simp [hkey]
  · next hkey => simp [hkey]

/-- Under each key there is in the end what was carried over, or else what was there before. -/
theorem rowOf?_foldl_carryRow (hc : (changed.map rowKey?).Nodup) (hnd : (rows.map rowKey?).Nodup)
    (base : List Fields) (k : String) :
    rowOf? (changed.foldl (carryRow base) rows) k =
      (carriedRow? base changed k).or (rowOf? rows k) := by
  induction changed generalizing rows with
  | nil => rfl
  | cons row changed ih =>
    obtain ⟨hnew, hc⟩ := List.nodup_cons.1 hc
    have hother : ∀ r ∈ changed, rowKey? r ≠ rowKey? row := fun r hr heq =>
      hnew (heq ▸ List.mem_map_of_mem hr)
    rw [List.foldl_cons, ih hc (nodup_carryRow hnd base row), rowOf?_carryRow hnd, carriedRow?,
      carriedRow?, rowOf?_cons hother]
    by_cases hkey : rowKey? row = some k
    · have hnone : rowOf? changed k = none := rowOf?_eq_none_iff.2 fun r hr => hkey ▸ hother r hr
      rw [hnone, if_pos hkey]
      by_cases hcar : carriedKey? base row = some k <;> simp [hcar, Option.filter]
    · have hcar : carriedKey? base row ≠ some k := fun h => hkey (rowKey?_of_carriedKey? h)
      rw [if_neg hkey, if_neg hcar]

theorem nodup_foldl_carryRow (hnd : (rows.map rowKey?).Nodup) (base changed : List Fields) :
    ((changed.foldl (carryRow base) rows).map rowKey?).Nodup := by
  induction changed generalizing rows with
  | nil => exact hnd
  | cons row changed ih => exact ih (nodup_carryRow hnd base row)

/-- The rows that were there before keep their places, or leave them to rows of the same keys. -/
theorem prefix_map_rowKey?_foldl_carryRow (base changed rows : List Fields) :
    rows.map rowKey? <+: (changed.foldl (carryRow base) rows).map rowKey? := by
  induction changed generalizing rows with
  | nil => exact List.prefix_rfl
  | cons row changed ih =>
    refine List.IsPrefix.trans ?_ (ih (carryRow base rows row))
    rw [carryRow_eq]
    split
    · next hc =>
      rcases map_rowKey?_putRow rows (rowKey?_of_carriedKey? hc) with heq | ⟨-, heq⟩
      · exact heq ▸ List.prefix_rfl
      · exact heq ▸ List.prefix_append _ _
    · exact List.prefix_rfl

theorem mem_foldl_carryRow (h : r ∈ changed.foldl (carryRow base) rows) :
    r ∈ rows ∨ r ∈ changed := by
  induction changed generalizing rows with
  | nil => exact .inl h
  | cons row changed ih =>
    rcases ih h with h | h
    · rw [carryRow_eq] at h
      split at h
      · rcases mem_putRow h with rfl | h
        · exact .inr List.mem_cons_self
        · exact .inl h
      · exact .inl h
    · exact .inr (List.mem_cons_of_mem _ h)

theorem filter_foldl_carryRow {p : Fields → Bool}
    (hp : ∀ row ∈ changed, ∀ key, carriedKey? base row = some key →
      ∀ r, rowKey? r = some key → p r = false) :
    (changed.foldl (carryRow base) rows).filter p = rows.filter p := by
  induction changed generalizing rows with
  | nil => rfl
  | cons row changed ih =>
    obtain ⟨hrow, hp⟩ := List.forall_mem_cons.1 hp
    rw [List.foldl_cons, ih hp, carryRow_eq]
    split
    · next key hc => exact filter_putRow (hrow key hc) (rowKey?_of_carriedKey? hc)
    · rfl

/-! ### One table -/

theorem carriedRow?_eq (base changed : List Fields) (key : String) :
    carriedRow? base changed key =
      if differs base changed key = true then rowOf? changed key else none := by
  unfold carriedRow? differs
  cases hrow : rowOf? changed key with
  | none => simp
  | some row =>
    obtain ⟨-, hkey⟩ := mem_of_rowOf?_eq_some hrow
    cases hold : rowOf? base key with
    | none => simp [carriedKey?, hkey, hold]
    | some old => cases hsame : Json.sameFields old row <;> simp [carriedKey?, hkey, hold, hsame]

theorem survives_of_not_differs (hkey : rowKey? row = some key)
    (h : differs base changed key = false) : survives base changed row = true := by
  unfold differs at h
  unfold survives
  rw [hkey]
  dsimp only
  cases hold : rowOf? base key <;> cases hrow : rowOf? changed key <;> simp_all

/-- The pass over the live table drops the rows of the keys that the transaction removed. -/
theorem rowOf?_filter_survives (hl : (live.map rowKey?).Nodup) (base changed : List Fields)
    (key : String) : rowOf? (live.filter (survives base changed)) key =
      if (rowOf? base key).isNone || (rowOf? changed key).isSome then rowOf? live key else none := by
  have hnd := nodup_filter hl (survives base changed)
  have hsurvives : ∀ r, rowKey? r = some key → survives base changed r =
      ((rowOf? base key).isNone || (rowOf? changed key).isSome) := fun r hr => by
    unfold survives; rw [hr]
  split
  · next h => exact rowOf?_congr hnd hl fun r hr => by simp [List.mem_filter, hsurvives r hr, h]
  · next h =>
    refine rowOf?_eq_none_iff.2 fun r hr hkey => h ?_
    rw [← hsurvives r hkey]; exact (List.mem_filter.1 hr).2

theorem rowOf?_commitRows (hl : Keyed live) (hc : Keyed changed) (base : List Fields) (key : String) :
    rowOf? (commitRows live base changed) key =
      if differs base changed key = true then rowOf? changed key else rowOf? live key := by
  rw [commitRows, rowOf?_foldl_carryRow hc.nodup (nodup_filter hl.nodup _), carriedRow?_eq,
    rowOf?_filter_survives hl.nodup]
  unfold differs
  cases rowOf? base key <;> cases rowOf? changed key <;> simp
  split <;> rfl

theorem keyed_commitRows (hl : Keyed live) (hc : Keyed changed) (base : List Fields) :
    Keyed (commitRows live base changed) where
  hasKey r hr := (mem_foldl_carryRow hr).elim (fun h => hl.hasKey r (List.mem_filter.1 h).1)
    (hc.hasKey r)
  nodup := nodup_foldl_carryRow (nodup_filter hl.nodup _) base changed

/-- The rows that the transaction did not touch stay, in their order. -/
theorem filter_untouched_commitRows (hc : Keyed changed) (live base : List Fields) :
    (commitRows live base changed).filter (untouched base changed) =
      live.filter (untouched base changed) := by
  rw [commitRows, filter_foldl_carryRow, List.filter_filter]
  · refine List.filter_congr fun row _ => ?_
    cases hun : untouched base changed row with
    | false => rfl
    | true =>
      cases hkey : rowKey? row with
      | none => simp [survives, hkey]
      | some key =>
        have hdiff : differs base changed key = false := by simpa [untouched, hkey] using hun
        rw [survives_of_not_differs hkey hdiff]; rfl
  · -- a row is carried over only where the two tables differ
    intro row hrow key hcar r hr
    have hat : rowOf? changed key = some row :=
      (rowOf?_eq_some_iff hc.nodup).2 ⟨hrow, rowKey?_of_carriedKey? hcar⟩
    have hcarried : carriedRow? base changed key = some row := by simp [carriedRow?, hat, hcar]
    rw [carriedRow?_eq] at hcarried
    have hdiff : differs base changed key = true := by
      by_contra h
      rw [if_neg h] at hcarried; cases hcarried
    simp [untouched, hr, hdiff]

/-! ### All tables -/

theorem get?_foldl_insert_of_not_mem (g : Store → String → List Fields) {tables : List String}
    {table : String} (h : table ∉ tables) (s : Store) :
    (tables.foldl (fun s t => s.insert t (g s t)) s).get? table = s.get? table := by
  induction tables generalizing s with
  | nil => rfl
  | cons t tables ih =>
    rw [List.mem_cons, not_or] at h
    rw [List.foldl_cons, ih h.2, OrdMap.get?_insert, if_neg h.1]

/-- For each id of a table that the private copy has, the copy's version of the row counts if it is
another one than at the start, and the live version otherwise. Rows whose ids the transaction made no
difference to stay in their order, and so do the ids of all rows that it did not remove. -/
theorem commit_threeWay {live base changed : Store}
    (hlive : ∀ table ∈ changed.keys, Keyed (live.rows table))
    (hchanged : ∀ table ∈ changed.keys, Keyed (changed.rows table)) :
    let result := live.commit base changed
    (∀ table ∈ changed.keys,
      let l := live.rows table
      let b := base.rows table
      let c := changed.rows table
      (∀ key, rowOf? (result.rows table) key =
        if differs b c key = true then rowOf? c key else rowOf? l key) ∧
      Keyed (result.rows table) ∧
      (result.rows table).filter (untouched b c) = l.filter (untouched b c) ∧
      (l.filter (survives b c)).map rowKey? <+: (result.rows table).map rowKey?) ∧
    ∀ table, table ∉ changed.keys → result.get? table = live.get? table := by
  intro result
  refine ⟨?_, fun table htable => get?_foldl_insert_of_not_mem _ htable live⟩
  intro table htable l b c
  have hrows : result.rows table = commitRows l b c := by
    show (live.commit base changed).rows table = _
    rw [rows_commit, if_pos htable]
  have hl := hlive table htable
  have hc := hchanged table htable
  rw [hrows]
  exact ⟨rowOf?_commitRows hl hc b, keyed_commitRows hl hc b, filter_untouched_commitRows hc l b,
    prefix_map_rowKey?_foldl_carryRow b c _⟩

/-- A note with an id and a text. -/
def note (id text : String) : Fields := .ofList [("id", .str id), ("text", .str text)]

/-- The notes when a transaction starts. -/
def notesAtStart : Store := OrdMap.ofList [("note", [note "1" "a", note "2" "b", note "3" "c"])]

/-- What the transaction made of them: one changed, one removed, one added. -/
def notesInside : Store := OrdMap.ofList [("note", [note "1" "A", note "3" "c", note "4" "d"])]

/-- What others made of them: two changed, one of which the transaction removed, and one added. -/
def notesOutside : Store :=
  OrdMap.ofList [("note", [note "1" "x", note "2" "y", note "3" "z", note "5" "e"])]

theorem commit_threeWay_notes :
    ((notesOutside.commit notesAtStart notesInside).rows "note").map
        (fun row => (row.get? "id", row.get? "text")) =
      [(some (.str "1"), some (.str "A")), (some (.str "3"), some (.str "z")),
        (some (.str "5"), some (.str "e")), (some (.str "4"), some (.str "d"))] ∧
    Keyed ((notesOutside.commit notesAtStart notesInside).rows "note") := by
  have hkeys : ∀ table ∈ notesInside.keys, table = "note" := by decide
  have hlive : ∀ table ∈ notesInside.keys, Keyed (notesOutside.rows table) := fun table h => by
    rw [hkeys table h]; exact ⟨by decide, by decide⟩
  have hchanged : ∀ table ∈ notesInside.keys, Keyed (notesInside.rows table) := fun table h => by
    rw [hkeys table h]; exact ⟨by decide, by decide⟩
  refine ⟨by rfl, ?_⟩
  obtain ⟨hmerged, -⟩ := @commit_threeWay notesOutside notesAtStart notesInside hlive hchanged
  exact (hmerged "note" (by decide)).2.1

end EntityRest.Store
