import EntityRest.Proofs.Driver.Effects
import EntityRest.Proofs.Query.Equality
import Mathlib.Data.List.Find
import Mathlib.Data.List.InsertIdx

/-! # Updates that commute

An update compares the whole row that it makes with all others, but in a table whose rows are `Distinct` only the
columns that it gives values for can clash (`clashingColumn?_updatedRow`). So what comes of a `Change` depends on these
columns and on the ids alone, and an update of other columns is without effect on it (`verdict_modify`). Rows are
compared as they are `shown`, which leaves the time of the last change out. -/

namespace EntityRest

theorem map_modify {α β : Type} {g : α → β} {f : α → α} {f' : β → β} (h : ∀ a, g (f a) = f' (g a)) (l : List α)
    (i : Nat) : (l.modify i f).map g = (l.map g).modify i f' := by
  refine List.ext_getElem? fun j => ?_
  simp only [List.getElem?_map, List.getElem?_modify]
  cases l[j]? with
  | none => rfl
  | some a => by_cases hij : i = j <;> simp [hij, h]

theorem map_modify_of_eq {α β : Type} {g : α → β} {f : α → α} (h : ∀ a, g (f a) = g a) (l : List α) (i : Nat) :
    (l.modify i f).map g = l.map g := by
  have hkeep : ∀ a, g (f a) = id (g a) := h
  rw [map_modify hkeep, List.modify_id]

namespace Store

/-- What a row shows: its values, but of the time of its last change only whether there is one. -/
def shown (row : Fields) (k : String) : Option Json :=
  if k = "updatedAt" then (row.get? k).map fun _ => .null else row.get? k

theorem shown_of_ne {k : String} (h : k ≠ "updatedAt") (row : Fields) : shown row k = row.get? k := if_neg h

/-- What a row shows after data have been written over it. -/
def overwrite (e : Entity) (data : Fields) (row : String → Option Json) (k : String) : Option Json :=
  if e.timestamps = true ∧ k = "updatedAt" then some .null else (data.get? k).or (row k)

theorem overwrite_of_ne {k : String} (h : k ≠ "updatedAt") (e : Entity) (data : Fields)
    (row : String → Option Json) : overwrite e data row k = (data.get? k).or (row k) := if_neg fun hk => h hk.2

theorem overwrite_of_get?_eq_none {data : Fields} {k : String} (h : data.get? k = none) (hk : k ≠ "updatedAt")
    (e : Entity) (row : String → Option Json) : overwrite e data row k = row k := by
  rw [overwrite_of_ne hk, h, Option.none_or]

/-- A row clashes with others in a column if its value stands in theirs. -/
theorem any_clash (k : String) (row : Fields) (others : List Fields) :
    others.any (clash k row) = (row.get? k).elim false fun v =>
      !v.isNull && (others.map (·.get? k)).any (·.elim false (·.same v)) := by
  cases hv : row.get? k with
  | none => simp [clash, hv]
  | some v =>
    have hclash : clash k row = fun other => !v.isNull && (other.get? k).elim false (·.same v) := by
      funext other
      rw [clash, hv]
      cases other.get? k <;> simp
    rw [hclash, Option.elim_some, List.any_map]
    cases v.isNull <;> simp [Function.comp_def]

theorem clash_congr {k : String} {row row' : Fields} (h : row.get? k = row'.get? k) (other : Fields) :
    clash k row other = clash k row' other := by
  rw [clash, clash, h]

theorem Distinct.any_clash_eq_false {e : Entity} {rows : List Fields} {i : Nat} {k : String} (h : Distinct e rows)
    (hi : i < rows.length) (hk : k ∈ identityColumns e) : (rows.eraseIdx i).any (clash k rows[i]) = false := by
  refine List.any_eq_false.2 fun other hother hclash => ?_
  exact h.apart_of_mem_eraseIdx hi hother k (mem_identityColumns.1 hk) (clash_eq_true_iff.1 hclash)

end Store

open Store

/-- An update of the row with a given id that sets neither the id nor the time of the last change. -/
structure Change where
  id : String
  data : Fields
  sorted : data.Sorted
  keeps_id : data.get? "id" = none
  keeps_time : data.get? "updatedAt" = none

namespace Change

def write (e : Entity) (c : Change) : Write := .update e (Filter.ofId c.id) c.data

theorem ne_updatedAt (c : Change) {k : String} {v : Json} (h : c.data.get? k = some v) : k ≠ "updatedAt" := by
  rintro rfl
  rw [c.keeps_time] at h
  cases h

def Disjoint (c c' : Change) : Prop := ∀ k, c.data.get? k = none ∨ c'.data.get? k = none

theorem Disjoint.symm {c c' : Change} (h : Disjoint c c') : Disjoint c' c := fun k => (h k).symm

theorem Disjoint.get?_eq_none {c c' : Change} (h : Disjoint c c') {k : String} {v : Json}
    (hv : c.data.get? k = some v) : c'.data.get? k = none :=
  (h k).resolve_left fun hnone => by rw [hnone] at hv; cases hv

theorem shown_updatedRow (c : Change) (e : Entity) (stamp : Stamp) (old : Fields) :
    shown (updatedRow e stamp old c.data) = overwrite e c.data (shown old) := by
  funext k
  unfold shown overwrite
  rw [get?_updatedRow c.sorted, updatedValue?]
  by_cases hk : k = "updatedAt"
  · subst hk
    cases e.timestamps <;> simp [c.keeps_time]
  · simp [hk]

/-- Which of the rows has the id. -/
def index (c : Change) (rows : List (String → Option Json)) : Nat :=
  (rows.map (· "id")).findIdx fun v => (v.getD .null).looseEq (.str c.id)

/-- The first identity column for which the data give a value that another row has. -/
def refused? (e : Entity) (c : Change) (rows : List (String → Option Json)) (i : Nat) : Option String :=
  (identityColumns e).find? fun k => (c.data.get? k).elim false fun v =>
    !v.isNull && ((rows.map (· k)).eraseIdx i).any (·.elim false (·.same v))

/-- What comes of a change: the index of the row that it is made on, or an error. -/
def verdict (e : Entity) (c : Change) (rows : List (String → Option Json)) : Except DriverError Nat :=
  if c.index rows < rows.length then
    (c.refused? e rows (c.index rows)).elim (.ok (c.index rows)) fun k => .error (.uniqueViolation e.name [k])
  else .error (.recordNotFound e.name)

/-- The rows after a change, which are the old ones if it fails. -/
def applied (e : Entity) (c : Change) (rows : List (String → Option Json)) : List (String → Option Json) :=
  (c.verdict e rows).toOption.elim rows fun i => rows.modify i (overwrite e c.data)

theorem eq_index_of_verdict {e : Entity} {c : Change} {rows : List (String → Option Json)} {i : Nat}
    (h : c.verdict e rows = .ok i) : i = c.index rows ∧ i < rows.length := by
  unfold verdict at h
  split at h
  · next hi =>
    cases hrefused : c.refused? e rows (c.index rows) with
    | none => rw [hrefused] at h; cases h; exact ⟨rfl, hi⟩
    | some k => rw [hrefused] at h; cases h
  · cases h

section Table

variable {e : Entity} {rows : List Fields} (c : Change)

theorem index_shown (rows : List Fields) :
    c.index (rows.map shown) = rows.findIdx (Filter.ofId c.id).accepts := by
  rw [index, List.map_map, List.findIdx_map]
  congr 1
  funext row
  exact (Filter.accepts_ofList_single "id" (.literal (.str c.id)) row).symm

theorem map_shown {k : String} (hk : k ≠ "updatedAt") (rows : List Fields) :
    (rows.map shown).map (· k) = rows.map (·.get? k) := by
  rw [List.map_map]
  exact List.map_congr_left fun row _ => shown_of_ne hk row

variable (hd : Distinct e rows) (hunique : "updatedAt" ∉ e.uniqueFields)
include hd hunique

/-- In the columns that the data give no value for, the new row clashes with none, as the old one did not. -/
theorem clashingColumn?_updatedRow (stamp : Stamp) {i : Nat} (hi : i < rows.length) :
    clashingColumn? e (updatedRow e stamp rows[i] c.data) (rows.eraseIdx i) = c.refused? e (rows.map shown) i := by
  refine List.find?_congr fun k hk => ?_
  have htime : k ≠ "updatedAt" := by
    rintro rfl
    rcases List.mem_cons.1 hk with hid | hk
    · exact absurd hid (by decide)
    · exact hunique hk
  have hget : (updatedRow e stamp rows[i] c.data).get? k = (c.data.get? k).or (rows[i].get? k) := by
    rw [get?_updatedRow c.sorted, updatedValue?, if_neg fun h => htime h.2]
  cases hv : c.data.get? k with
  | none =>
    rw [hv, Option.none_or] at hget
    rw [List.any_congr rfl (clash_congr hget), hd.any_clash_eq_false hi hk]
    rfl
  | some v =>
    rw [hv, Option.some_or] at hget
    rw [any_clash, hget, map_shown htime, List.eraseIdx_map]

theorem outcome_write {s : Store} (hrows : s.rows e.name = rows) (stamp : Stamp) :
    (c.write e).outcome false stamp s =
      (c.verdict e (rows.map shown)).map fun i =>
        s.insert e.name (rows.modify i (updatedRow e stamp · c.data)) := by
  subst hrows
  have houtcome : (c.write e).outcome false stamp s =
      (s.update false e stamp (Filter.ofId c.id) c.data).map Prod.snd := rfl
  rw [houtcome, Store.update, verdict, List.length_map]
  dsimp only
  rw [← c.index_shown]
  split
  · next hnone => rw [if_neg (Nat.not_lt.2 (List.getElem?_eq_none_iff.1 hnone))]; rfl
  · next old hold =>
    obtain ⟨hi, hold'⟩ := List.getElem?_eq_some_iff.1 hold
    have hset : (s.rows e.name).set (c.index ((s.rows e.name).map shown)) (updatedRow e stamp old c.data) =
        (s.rows e.name).modify (c.index ((s.rows e.name).map shown)) (updatedRow e stamp · c.data) := by
      rw [List.modify_eq_set_getElem?, hold]; rfl
    have hclash := c.clashingColumn?_updatedRow hd hunique stamp hi
    rw [hold'] at hclash
    rw [if_pos hi, hset, checkRow, if_neg Bool.false_ne_true, hclash]
    cases c.refused? e ((s.rows e.name).map shown) (c.index ((s.rows e.name).map shown)) <;> rfl

end Table

section Commute

variable {e : Entity} {c c' : Change} {rows : List (String → Option Json)}

theorem map_modify_overwrite {k : String} (hk : c'.data.get? k = none) (htime : k ≠ "updatedAt")
    (rows : List (String → Option Json)) (j : Nat) :
    (rows.modify j (overwrite e c'.data)).map (· k) = rows.map (· k) :=
  map_modify_of_eq (fun row => overwrite_of_get?_eq_none hk htime e row) rows j

theorem index_modify (c c' : Change) (rows : List (String → Option Json)) (j : Nat) :
    c.index (rows.modify j (overwrite e c'.data)) = c.index rows := by
  rw [index, index, map_modify_overwrite c'.keeps_id (by decide)]

variable (h : Disjoint c c')
include h

/-- A change of other columns is without effect on what comes of a change. -/
theorem verdict_modify (rows : List (String → Option Json)) (j : Nat) :
    c.verdict e (rows.modify j (overwrite e c'.data)) = c.verdict e rows := by
  have hrefused : ∀ i, c.refused? e (rows.modify j (overwrite e c'.data)) i = c.refused? e rows i := by
    refine fun i => List.find?_congr fun k _ => ?_
    cases hv : c.data.get? k with
    | none => rfl
    | some v => rw [map_modify_overwrite (h.get?_eq_none hv) (c.ne_updatedAt hv)]
  rw [verdict, verdict, index_modify, List.length_modify, hrefused]

theorem verdict_applied (rows : List (String → Option Json)) :
    c.verdict e (c'.applied e rows) = c.verdict e rows := by
  unfold applied
  cases c'.verdict e rows with
  | error err => rfl
  | ok j => exact verdict_modify h rows j

theorem overwrite_comm (row : String → Option Json) :
    overwrite e c'.data (overwrite e c.data row) = overwrite e c.data (overwrite e c'.data row) := by
  funext k
  by_cases hk : k = "updatedAt"
  · subst hk
    cases ht : e.timestamps <;> simp [overwrite, ht, keeps_time]
  · simp only [overwrite_of_ne hk]
    cases hv : c.data.get? k with
    | none => rw [Option.none_or, Option.none_or]
    | some v => rw [h.get?_eq_none hv, Option.none_or, Option.none_or]

theorem applied_comm (rows : List (String → Option Json)) :
    c.applied e (c'.applied e rows) = c'.applied e (c.applied e rows) := by
  have hleft := verdict_applied (e := e) h rows
  have hright := verdict_applied (e := e) h.symm rows
  unfold applied at hleft hright ⊢
  rw [hleft, hright]
  cases c.verdict e rows with
  | error err => rfl
  | ok i =>
    cases c'.verdict e rows with
    | error err => rfl
    | ok j =>
      show (rows.modify j _).modify i _ = (rows.modify i _).modify j _
      by_cases hij : i = j
      · rw [hij, List.modify_modify_eq, List.modify_modify_eq]
        congr 1
        exact funext fun row => (overwrite_comm h row).symm
      · exact List.modify_modify_ne _ _ _ (Ne.symm hij)

end Commute

/-- The row that has the id after a change is the one that it has been made on. -/
theorem getElem?_index_applied {e : Entity} {c : Change} {rows : List (String → Option Json)} {i : Nat}
    (h : c.verdict e rows = .ok i) :
    ∃ row, (c.applied e rows)[c.index (c.applied e rows)]? = some (overwrite e c.data row) := by
  obtain ⟨rfl, hi⟩ := eq_index_of_verdict h
  have happlied : c.applied e rows = rows.modify (c.index rows) (overwrite e c.data) := by rw [applied, h]; rfl
  rw [happlied, index_modify, List.getElem?_modify_eq, List.getElem?_eq_getElem hi]
  exact ⟨_, rfl⟩

theorem map_shown_find? (c : Change) (e : Entity) (s : Store) :
    (s.find? e (Filter.ofId c.id)).map shown =
      ((s.rows e.name).map shown)[c.index ((s.rows e.name).map shown)]? := by
  rw [find?, List.find?_eq_getElem?_findIdx, List.getElem?_map, index_shown]

/-- The row that has the id after a change holds its data. -/
theorem get?_find?_of_applied {e : Entity} {c : Change} {rows : List (String → Option Json)} {i : Nat} {s : Store}
    (h : c.verdict e rows = .ok i) (hs : (s.rows e.name).map shown = c.applied e rows) {k : String} {v : Json}
    (hv : c.data.get? k = some v) : (s.find? e (Filter.ofId c.id)).bind (·.get? k) = some v := by
  obtain ⟨row, hrow⟩ := getElem?_index_applied h
  have hfind := c.map_shown_find? e s
  rw [hs, hrow] at hfind
  obtain ⟨found, hfound, heq⟩ := Option.map_eq_some_iff.1 hfind
  have htime := c.ne_updatedAt hv
  rw [hfound, Option.bind_some, ← shown_of_ne htime, heq, overwrite_of_ne htime, hv, Option.some_or]

end Change

namespace InMemory

variable {schema : String → Entity} {scope : Nat} {env : Env} {e : Entity}

def seen (scope : Nat) (env : Env) (table : String) : List (String → Option Json) :=
  ((env.tables scope).rows table).map shown

/-- A change on a table whose rows are `Distinct` ends as its verdict says, and makes of the rows what it says. -/
theorem runOn_change (hd : Distinct e ((env.tables scope).rows e.name)) (hunique : "updatedAt" ∉ e.uniqueFields)
    (c : Change) :
    let ran := ((c.write e).act (connect false scope)).runOn env
    ran.1 = (c.verdict e (seen scope env e.name)).map (fun _ => ()) ∧
      seen scope ran.2 e.name = c.applied e (seen scope env e.name) ∧
      ∀ table, table ≠ e.name → seen scope ran.2 table = seen scope env table := by
  have houtcome := c.outcome_write hd hunique rfl (nextStamp env)
  change _ = (c.verdict e (seen scope env e.name)).map _ at houtcome
  intro ran
  have hran : ran = _ := runOn_act (c.write e) false scope env
  rw [houtcome] at hran
  unfold Change.applied
  cases hverdict : c.verdict e (seen scope env e.name) with
  | error err =>
    rw [hverdict] at hran
    have htables : ran.2.tables scope = env.tables scope := by rw [hran]; exact Env.tables_issued _
    have hseen : ∀ table, seen scope ran.2 table = seen scope env table := fun table => by
      rw [seen, htables]; rfl
    exact ⟨by rw [hran]; rfl, hseen _, fun table _ => hseen table⟩
  | ok i =>
    rw [hverdict] at hran
    have hopen : env.tables scope ≠ ∅ := fun hempty => by
      have hi := (Change.eq_index_of_verdict hverdict).2
      rw [seen, hempty] at hi
      cases hi
    have htables : ran.2.tables scope = (env.tables scope).insert e.name
        (((env.tables scope).rows e.name).modify i (updatedRow e (nextStamp env) · c.data)) := by
      rw [hran]
      exact Env.tables_setTables_of_ne_empty (by rwa [Env.tables_issued])
    refine ⟨by rw [hran]; rfl, ?_, fun table hne => ?_⟩
    · rw [seen, htables, rows_insert, if_pos rfl]
      exact map_modify (c.shown_updatedRow e _) _ i
    · rw [seen, htables, rows_insert, if_neg hne]; rfl

/-- Two updates by id that set different columns, neither the id nor the time of the last change, end in either order
as they would alone. Both orders lead to the same tables, up to these times, and the row that has the id of an update
that succeeded holds its data. -/
theorem changes_commute (h : Reached schema false scope env) (he : e = schema e.name)
    (hunique : "updatedAt" ∉ e.uniqueFields) (c c' : Change) (hdisjoint : c.Disjoint c') :
    let run (c : Change) (env : Env) := ((c.write e).act (connect false scope)).runOn env
    let first := run c env
    let both := run c' first.2
    let first' := run c' env
    let both' := run c first'.2
    both'.1 = first.1 ∧ both.1 = first'.1 ∧
      (∀ table, seen scope both.2 table = seen scope both'.2 table) ∧
      (first.1 = .ok () → ∀ k v, c.data.get? k = some v →
        ((both.2.tables scope).find? e (Filter.ofId c.id)).bind (·.get? k) = some v) ∧
      (both.1 = .ok () → ∀ k v, c'.data.get? k = some v →
        ((both.2.tables scope).find? e (Filter.ofId c'.id)).bind (·.get? k) = some v) := by
  intro run first both first' both'
  have hspec : ∀ (c : Change) (env : Env), Reached schema false scope env →
      (run c env).1 = (c.verdict e (seen scope env e.name)).map (fun _ => ()) ∧
        seen scope (run c env).2 e.name = c.applied e (seen scope env e.name) ∧
        ∀ table, table ≠ e.name → seen scope (run c env).2 table = seen scope env table := by
    intro c env h
    have hd := (reached_distinct h e.name).2
    rw [← he] at hd
    exact runOn_change hd hunique c
  have hreached : ∀ c : Change, Reached schema false scope (run c env).2 := fun c => h.call (c.write e) he
  obtain ⟨hfirst, hrows, hothers⟩ := hspec c env h
  obtain ⟨hfirst', hrows', hothers'⟩ := hspec c' env h
  obtain ⟨hboth, hrowsBoth, hothersBoth⟩ := hspec c' first.2 (hreached c)
  obtain ⟨hboth', hrowsBoth', hothersBoth'⟩ := hspec c first'.2 (hreached c')
  rw [hrows] at hboth hrowsBoth
  rw [hrows'] at hboth' hrowsBoth'
  have hsame : ∀ table, seen scope both.2 table = seen scope both'.2 table := by
    intro table
    by_cases hne : table = e.name
    · rw [hne, hrowsBoth, hrowsBoth', Change.applied_comm hdisjoint]
    · rw [hothersBoth table hne, hothers table hne, hothersBoth' table hne, hothers' table hne]
  refine ⟨?_, ?_, hsame, fun hok k v hv => ?_, fun hok k v hv => ?_⟩
  · rw [hboth', hfirst, Change.verdict_applied hdisjoint]
  · rw [hboth, hfirst', Change.verdict_applied hdisjoint.symm]
  · rw [hfirst, ← Change.verdict_applied hdisjoint] at hok
    obtain ⟨i, hi, -⟩ := exists_of_map_eq_ok hok
    exact Change.get?_find?_of_applied hi ((hsame e.name).trans hrowsBoth') hv
  · rw [hboth] at hok
    obtain ⟨i, hi, -⟩ := exists_of_map_eq_ok hok
    exact Change.get?_find?_of_applied hi hrowsBoth hv

/-- Gives the first account another address. -/
def readdressed : Change := ⟨"1", [("email", .str "c")], List.pairwise_singleton .., rfl, rfl⟩

/-- Gives the first account a name. -/
def renamed : Change := ⟨"1", [("name", .str "Ann")], List.pairwise_singleton .., rfl, rfl⟩

/-- Two changes of one row, the first of which would fail if the second account had the address. -/
theorem changes_commute_account :
    ∃ env, Reached (fun _ => account) false 0 env ∧ "updatedAt" ∉ account.uniqueFields ∧
      readdressed.Disjoint renamed ∧
      let run (c : Change) (env : Env) := (((c.write account).act (connect false 0)).runOn env).2
      let row := (run renamed (run readdressed env)).live.find? account (Filter.ofId "1")
      seen 0 (run renamed (run readdressed env)) "account" = seen 0 (run readdressed (run renamed env)) "account" ∧
        row.bind (·.get? "email") = some (.str "c") ∧ row.bind (·.get? "name") = some (.str "Ann") := by
  have h₁ : Reached (fun _ => account) false 0 Env.empty := .start rfl
  have h₂ := h₁.call (.create account (.ofList [("id", .str "1"), ("email", .str "a")])) rfl
  have h₃ := h₂.call (.create account (.ofList [("id", .str "2"), ("email", .str "b")])) rfl
  have hunique : "updatedAt" ∉ account.uniqueFields := by decide
  have hdisjoint : readdressed.Disjoint renamed := fun k => by
    by_cases hk : k = "email"
    · subst hk; exact .inr rfl
    · exact .inl ((Fields.get?_cons _ _ _ _).trans (if_neg hk))
  obtain ⟨-, -, hsame, hfirst, hsecond⟩ := changes_commute h₃ rfl hunique readdressed renamed hdisjoint
  exact ⟨_, h₃, hunique, hdisjoint, hsame "account", hfirst rfl "email" _ rfl, hsecond rfl "name" _ rfl⟩

end InMemory

end EntityRest
