import EntityRest.Proofs.Store.Identity
import EntityRest.Store.Commit
import Mathlib.Data.List.Pairwise

/-! # Where the rows of a commit come from

`merge` is `commitRows` with a note on each row of whether the transaction put it there; without the
notes the two agree (`map_row_merge`). Rows of one origin come from one table, the live one or the
private copy, so they are `Distinct` if these are. What a commit does not look at is whether a row that
stays and a row that the transaction wrote share a value: its result is distinct if and only if no
such pair does (`distinct_commitRows_iff`). -/

namespace EntityRest.Store

/-- The key under which a row of the private copy is carried over, if the transaction changed it. -/
def carriedKey? (base : List Fields) (row : Fields) : Option String :=
  match rowKey? row with
  | none => none
  | some key =>
    match rowOf? base key with
    | some old => if Json.sameFields old row then none else some key
    | none => some key

theorem carryRow_eq (base live : List Fields) (row : Fields) :
    carryRow base live row =
      match carriedKey? base row with
      | some key => putRow live key row
      | none => live := by
  unfold carryRow carriedKey?
  cases rowKey? row with
  | none => rfl
  | some key =>
    dsimp only
    cases rowOf? base key with
    | none => rfl
    | some old => dsimp only; split <;> rfl

/-- A row of the result of a commit, with a note of whether the transaction put it there. -/
structure MergeRow where
  row : Fields
  written : Bool

/-- `putRow`, with the note. -/
def putMerged (rows : List MergeRow) (key : String) (row : Fields) : List MergeRow :=
  let i := rows.findIdx fun r => rowKey? r.row = some key
  if i < rows.length then rows.set i ⟨row, true⟩ else rows ++ [⟨row, true⟩]

/-- `carryRow`, with the note. -/
def carryMerged (base : List Fields) (rows : List MergeRow) (row : Fields) : List MergeRow :=
  match carriedKey? base row with
  | some key => putMerged rows key row
  | none => rows

/-- `commitRows`, with the notes. -/
def merge (live base changed : List Fields) : List MergeRow :=
  changed.foldl (carryMerged base) ((live.filter (survives base changed)).map (⟨·, false⟩))

/-- The rows that a commit leaves as they are in the live table. -/
def keptRows (live base changed : List Fields) : List Fields :=
  ((merge live base changed).filter (!·.written)).map (·.row)

/-- The rows that a commit takes over from the private copy. -/
def writtenRows (live base changed : List Fields) : List Fields :=
  ((merge live base changed).filter (·.written)).map (·.row)

theorem map_row_putMerged (rows : List MergeRow) (key : String) (row : Fields) :
    (putMerged rows key row).map (·.row) = putRow (rows.map (·.row)) key row := by
  have hi : (rows.map (·.row)).findIdx (fun r => decide (rowKey? r = some key)) =
      rows.findIdx fun r => decide (rowKey? r.row = some key) := by
    rw [List.findIdx_map]; rfl
  unfold putMerged putRow
  simp only [hi, List.length_map]
  split
  · rw [List.map_set]
  · rw [List.map_append]; rfl

theorem map_row_foldl_carryMerged (base changed : List Fields) (rows : List MergeRow) :
    (changed.foldl (carryMerged base) rows).map (·.row) =
      changed.foldl (carryRow base) (rows.map (·.row)) := by
  induction changed generalizing rows with
  | nil => rfl
  | cons row changed ih =>
    rw [List.foldl_cons, List.foldl_cons, ih, carryRow_eq, carryMerged]
    cases carriedKey? base row with
    | none => rfl
    | some key => rw [map_row_putMerged]

theorem map_row_merge (live base changed : List Fields) :
    (merge live base changed).map (·.row) = commitRows live base changed := by
  rw [merge, map_row_foldl_carryMerged, List.map_map]
  show changed.foldl (carryRow base) ((live.filter _).map id) = _
  rw [List.map_id]; rfl

theorem commitRows_perm (live base changed : List Fields) :
    (commitRows live base changed).Perm
      (keptRows live base changed ++ writtenRows live base changed) := by
  rw [← map_row_merge, keptRows, writtenRows, ← List.map_append]
  have h := List.filter_append_perm (fun r : MergeRow => !r.written) (merge live base changed)
  simp only [Bool.not_not] at h
  exact h.symm.map _

section Merge

variable {e : Entity} {rows : List MergeRow} {live base changed : List Fields} {key : String}
variable {row : Fields}

theorem mem_putMerged {r : MergeRow} (h : r ∈ putMerged rows key row) : r ∈ rows ∨ r = ⟨row, true⟩ := by
  unfold putMerged at h
  dsimp only at h
  split at h
  · exact List.mem_or_eq_of_mem_set h
  · simpa using h

/-- Rows of one origin are apart. -/
def ApartByOrigin (e : Entity) (rows : List MergeRow) : Prop :=
  rows.Pairwise fun a b => a.written = b.written → Apart e a.row b.row

theorem ApartByOrigin.perm {rows' : List MergeRow} (h : ApartByOrigin e rows) (hp : rows.Perm rows') :
    ApartByOrigin e rows' :=
  (hp.pairwise_iff fun hab heq => (hab heq.symm).symm).1 h

theorem ApartByOrigin.putMerged (h : ApartByOrigin e rows)
    (hrow : ∀ r ∈ rows, r.written = true → Apart e row r.row) :
    ApartByOrigin e (putMerged rows key row) := by
  unfold Store.putMerged
  dsimp only
  generalize rows.findIdx _ = i
  split
  · next hi =>
    have herase : ApartByOrigin e (rows.eraseIdx i) :=
      List.Pairwise.sublist (List.eraseIdx_sublist rows i) h
    refine ApartByOrigin.perm (List.pairwise_cons.2 ⟨fun r hr heq => ?_, herase⟩)
      (List.set_perm_cons_eraseIdx hi _).symm
    exact hrow r (List.mem_of_mem_eraseIdx hr) heq.symm
  · exact ApartByOrigin.perm (List.pairwise_cons.2 ⟨fun r hr heq => hrow r hr heq.symm, h⟩)
      (List.perm_append_singleton _ rows).symm

/-- What carrying rows over keeps, where `done` are the rows that have been carried. -/
structure Merging (e : Entity) (live done : List Fields) (rows : List MergeRow) : Prop where
  apart : ApartByOrigin e rows
  kept : ∀ r ∈ rows, r.written = false → r.row ∈ live
  written : ∀ r ∈ rows, r.written = true → r.row ∈ done

namespace Merging

variable {done : List Fields}

theorem start (h : Distinct e live) : Merging e live [] (live.map (⟨·, false⟩)) where
  apart := by
    rw [ApartByOrigin, List.pairwise_map]
    refine List.Pairwise.imp ?_ h
    intro a b hab _
    exact hab
  kept := by simp
  written := by simp

theorem carry (h : Merging e live done rows) (hrow : ∀ r ∈ done, Apart e row r) :
    Merging e live (done ++ [row]) (carryMerged base rows row) := by
  have hdone : ∀ r ∈ rows, r.written = true → r.row ∈ done ++ [row] := fun r hr hw =>
    List.mem_append_left _ (h.written r hr hw)
  unfold carryMerged
  split
  · refine ⟨h.apart.putMerged fun r hr hw => hrow _ (h.written r hr hw), fun r hr hw => ?_,
      fun r hr hw => ?_⟩
    · rcases mem_putMerged hr with hr | rfl
      · exact h.kept r hr hw
      · cases hw
    · rcases mem_putMerged hr with hr | rfl
      · exact hdone r hr hw
      · simp
  · exact ⟨h.apart, h.kept, hdone⟩

theorem foldl (h : Merging e live done rows) (hd : Distinct e (done ++ changed)) :
    Merging e live (done ++ changed) (changed.foldl (carryMerged base) rows) := by
  induction changed generalizing done rows with
  | nil => simpa using h
  | cons row changed ih =>
    rw [List.append_cons] at hd ⊢
    -- `row` and the rows carried before it are rows of one table
    have hrow : ∀ r ∈ done, Apart e row r := fun r hr =>
      (((List.pairwise_append.1 (List.pairwise_append.1 hd).1).2.2 r hr) row (by simp)).symm
    exact ih (h.carry hrow) hd

end Merging

theorem merging_merge (hl : Distinct e live) (hc : Distinct e changed) :
    Merging e live changed (merge live base changed) := by
  have hsurvives : Distinct e (live.filter (survives base changed)) := hl.sublist List.filter_sublist
  have h : Merging e (live.filter (survives base changed)) changed (merge live base changed) :=
    (Merging.start hsurvives).foldl hc
  exact ⟨h.apart, fun r hr hw => (List.mem_filter.1 (h.kept r hr hw)).1, h.written⟩

theorem mem_live_of_mem_keptRows (hl : Distinct e live) (hc : Distinct e changed)
    (h : row ∈ keptRows live base changed) : row ∈ live := by
  obtain ⟨r, hr, rfl⟩ := List.mem_map.1 h
  obtain ⟨hr, hw⟩ := List.mem_filter.1 hr
  exact (merging_merge hl hc).kept r hr (by simpa using hw)

theorem mem_changed_of_mem_writtenRows (hl : Distinct e live) (hc : Distinct e changed)
    (h : row ∈ writtenRows live base changed) : row ∈ changed := by
  obtain ⟨r, hr, rfl⟩ := List.mem_map.1 h
  obtain ⟨hr, hw⟩ := List.mem_filter.1 hr
  exact (merging_merge hl hc).written r hr hw

/-- The rows of a commit are distinct if and only if each row that stays is apart from each row that
is taken over. -/
theorem distinct_commitRows_iff (hl : Distinct e live) (hc : Distinct e changed) :
    Distinct e (commitRows live base changed) ↔
      ∀ row ∈ keptRows live base changed, ∀ other ∈ writtenRows live base changed,
        Apart e row other := by
  have hm : Merging e live changed (merge live base changed) := merging_merge hl hc
  rw [← map_row_merge, Distinct, List.pairwise_map]
  simp only [keptRows, writtenRows, List.forall_mem_map, List.mem_filter, and_imp, Bool.not_eq_true']
  constructor
  · intro h a ha haw b hb hbw
    have hne : a ≠ b := by rintro rfl; rw [haw] at hbw; cases hbw
    have : Std.Symm fun a b : MergeRow => Apart e a.row b.row := ⟨fun _ _ hab => hab.symm⟩
    exact h.forall ha hb hne
  · intro h
    refine hm.apart.imp_of_mem fun {a b} ha hb hab => ?_
    cases haw : a.written <;> cases hbw : b.written
    · exact hab (by rw [haw, hbw])
    · exact h a ha haw b hb hbw
    · exact (h b hb hbw a ha haw).symm
    · exact hab (by rw [haw, hbw])

end Merge

/-! ### Whole tables -/

theorem rows_foldl_insert (g : String → List Fields → List Fields) {tables : List String}
    (hnd : tables.Nodup) (s : Store) (table : String) :
    Store.rows (tables.foldl (fun s t => s.insert t (g t (s.rows t))) s) table =
      if table ∈ tables then g table (s.rows table) else s.rows table := by
  induction tables generalizing s with
  | nil => simp
  | cons t tables ih =>
    obtain ⟨ht, hnd⟩ := List.nodup_cons.1 hnd
    rw [List.foldl_cons, ih hnd, rows_insert]
    by_cases htable : table = t
    · subst htable; simp [ht]
    · simp [htable]

theorem rows_commit (live base changed : Store) (table : String) :
    (live.commit base changed).rows table =
      if table ∈ changed.keys then
        commitRows (live.rows table) (base.rows table) (changed.rows table)
      else live.rows table :=
  rows_foldl_insert (fun t rows => commitRows rows (base.rows t) (changed.rows t))
    changed.nodup_keys live table

/-- A table that the private copy does not have keeps all its rows. -/
theorem merge_nil (live : List Fields) : merge live [] [] = live.map (⟨·, false⟩) := by
  have hall : live.filter (survives [] []) = live := by
    refine List.filter_eq_self.2 fun row _ => ?_
    unfold survives
    split <;> rfl
  rw [merge, List.foldl_nil, hall]

theorem commitRows_nil (live : List Fields) : commitRows live [] [] = live := by
  rw [← map_row_merge, merge_nil, List.map_map]
  exact List.map_id live

section Commit

variable {live base changed : Store}

theorem rows_commit_eq (hkeys : base.keys ⊆ changed.keys) (table : String) :
    (live.commit base changed).rows table =
      commitRows (live.rows table) (base.rows table) (changed.rows table) := by
  rw [rows_commit]
  split
  · rfl
  · next htable =>
    rw [rows_eq_nil htable, rows_eq_nil fun hbase => htable (hkeys hbase), commitRows_nil]

end Commit

end EntityRest.Store
