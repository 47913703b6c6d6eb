import EntityRest.Proofs.Driver.Transaction
import EntityRest.Proofs.Store.Row

/-! # What a call that writes does, in full

`Write.outcome` is a call as a function of the tables, and the driver does what it says (`runOn_act`): a call that
fails uses up a stamp and nothing else. One that succeeds appends, replaces or removes one row, and the row that it
replaces or removes is the first that its filter accepts (`Write.Effect`, `effect_of_outcome`). A transaction that
fails drops its private copy, so that only the calls on the live tables count that were made `Meanwhile`. -/

namespace EntityRest

namespace Write

def data : Write → Fields
  | create _ data => data
  | update _ _ data => data
  | delete _ _ => []

/-- What a call makes of tables. -/
def outcome (enforceKeys : Bool) (stamp : Stamp) (s : Store) : Write → Except DriverError Store
  | create e data => (s.create enforceKeys e stamp data).map Prod.snd
  | update e f data => (s.update enforceKeys e stamp f data).map Prod.snd
  | delete e f => s.delete e f

/-- The tables after a call, which are the old ones if it fails. -/
def applied (enforceKeys : Bool) (stamp : Stamp) (s : Store) (w : Write) : Store :=
  (w.outcome enforceKeys stamp s).toOption.getD s

/-- The first row that a filter accepts stands between others. -/
structure FirstAmong (f : Filter) (rows before : List Fields) (row : Fields) (after : List Fields) :
    Prop where
  split : rows = before ++ row :: after
  accepted : f.accepts row = true
  earlier : ∀ other ∈ before, f.accepts other = false

/-- What a call that succeeds does to the rows of its table. -/
inductive Effect (stamp : Stamp) (rows : List Fields) : Write → List Fields → Prop
  | create {e : Entity} {data row : Fields} (hrow : ∀ k, row.get? k = Store.newValue? e stamp data k) :
    Effect stamp rows (create e data) (rows ++ [row])
  | update {e : Entity} {f : Filter} {data old row : Fields} {before after : List Fields}
      (hfirst : FirstAmong f rows before old after)
      (hrow : ∀ k, row.get? k = Store.updatedValue? e stamp old data k) :
    Effect stamp rows (update e f data) (before ++ row :: after)
  | delete {e : Entity} {f : Filter} {old : Fields} {before after : List Fields}
      (hfirst : FirstAmong f rows before old after) : Effect stamp rows (delete e f) (before ++ after)

theorem firstAmong_of_getElem? {f : Filter} {rows : List Fields} {old : Fields}
    (h : rows[rows.findIdx f.accepts]? = some old) :
    ∃ before after, FirstAmong f rows before old after ∧
      (∀ row, rows.set (rows.findIdx f.accepts) row = before ++ row :: after) ∧
      rows.eraseIdx (rows.findIdx f.accepts) = before ++ after := by
  obtain ⟨hi, rfl⟩ := List.getElem?_eq_some_iff.1 h
  refine ⟨rows.take (rows.findIdx f.accepts), rows.drop (rows.findIdx f.accepts + 1), ⟨?_, ?_, ?_⟩, fun row => ?_, ?_⟩
  · rw [← List.drop_eq_getElem_cons hi, List.take_append_drop]
  · exact List.findIdx_getElem
  · intro other hother
    obtain ⟨j, hj, rfl⟩ := List.mem_take_iff_getElem.1 hother
    exact List.not_of_lt_findIdx (by omega)
  · rw [List.set_eq_take_append_cons_drop, if_pos hi]
  · exact List.eraseIdx_eq_take_drop_succ rows _

section Outcome

variable {enforceKeys : Bool} {stamp : Stamp} {s s' : Store}

theorem effect_create {e : Entity} {data : Fields}
    (h : (create e data).outcome enforceKeys stamp s = .ok s') :
    ∃ rows, s' = s.insert e.name rows ∧ Effect stamp (s.rows e.name) (create e data) rows := by
  obtain ⟨⟨row, s'⟩, hcreate, rfl⟩ := exists_of_map_eq_ok h
  obtain ⟨rfl, rfl, -⟩ := Store.create_ok hcreate
  exact ⟨_, rfl, .create (Store.get?_newRow e stamp data)⟩

theorem effect_update {e : Entity} {f : Filter} {data : Fields} (hdata : data.Sorted)
    (h : (update e f data).outcome enforceKeys stamp s = .ok s') :
    ∃ rows, s' = s.insert e.name rows ∧ Effect stamp (s.rows e.name) (update e f data) rows := by
  obtain ⟨⟨row, s'⟩, hupdate, rfl⟩ := exists_of_map_eq_ok h
  unfold Store.update at hupdate
  dsimp only at hupdate
  split at hupdate
  · cases hupdate
  · next old hold =>
    split at hupdate
    · cases hupdate
    · cases hupdate
      obtain ⟨before, after, hfirst, hset, -⟩ := firstAmong_of_getElem? hold
      refine ⟨_, rfl, ?_⟩
      rw [hset]
      exact .update hfirst (Store.get?_updatedRow hdata e stamp old)

theorem effect_delete {e : Entity} {f : Filter} (h : (delete e f).outcome enforceKeys stamp s = .ok s') :
    ∃ rows, s' = s.insert e.name rows ∧ Effect stamp (s.rows e.name) (delete e f) rows := by
  change s.delete e f = .ok s' at h
  unfold Store.delete at h
  dsimp only at h
  split at h
  · next hi =>
    cases h
    obtain ⟨before, after, hfirst, -, herase⟩ := firstAmong_of_getElem? (List.getElem?_eq_getElem hi)
    refine ⟨_, rfl, ?_⟩
    rw [herase]
    exact .delete hfirst
  · cases h

theorem effect_of_outcome {w : Write} (hdata : w.data.Sorted) (h : w.outcome enforceKeys stamp s = .ok s') :
    Effect stamp (s.rows w.entity.name) w (s'.rows w.entity.name) ∧
      ∀ table, table ≠ w.entity.name → s'.rows table = s.rows table := by
  obtain ⟨rows, rfl, heffect⟩ :
      ∃ rows, s' = s.insert w.entity.name rows ∧ Effect stamp (s.rows w.entity.name) w rows := by
    cases w with
    | create e data => exact effect_create h
    | update e f data => exact effect_update hdata h
    | delete e f => exact effect_delete h
  refine ⟨?_, fun table htable => ?_⟩
  · rw [Store.rows_insert, if_pos rfl]; exact heffect
  · rw [Store.rows_insert, if_neg htable]

end Outcome

end Write

namespace InMemory

variable {enforceKeys : Bool} {scope : Nat} {env : Env}

/-- A call of the driver does to the tables of its scope what its outcome says; if it fails, all that it has done
is to use up a stamp. -/
theorem runOn_act (w : Write) (enforceKeys : Bool) (scope : Nat) (env : Env) :
    (w.act (connect enforceKeys scope)).runOn env =
      match w.outcome enforceKeys (nextStamp env) (env.tables scope) with
      | .ok s => (.ok (), { env with issued := env.issued + 1 }.setTables scope s)
      | .error e => (.error e, { env with issued := env.issued + 1 }) := by
  cases w with
  | create e data =>
    rw [Write.act, create_connect, Action.runOn_bind, runOn_writing, Write.outcome]
    cases (env.tables scope).create enforceKeys e (nextStamp env) data <;> rfl
  | update e f data =>
    rw [Write.act, update_connect, Action.runOn_bind, runOn_writing, Write.outcome]
    cases (env.tables scope).update enforceKeys e (nextStamp env) f data <;> rfl
  | delete e f =>
    rw [Write.act, delete_connect, Action.runOn_bind, runOn_writing, Write.outcome]
    cases (env.tables scope).delete e f <;> rfl

/-- What may happen while a transaction's work is done: calls on private tables, its own or those of transactions
within it, calls on the live tables, and whatever leaves these alone. The calls on the live tables are listed with
their stamps, the oldest first. -/
inductive Meanwhile (enforceKeys : Bool) (env : Env) : List (Write × Stamp) → Env → Prop
  | start : Meanwhile enforceKeys env [] env
  | inside {outside : List (Write × Stamp)} {env' : Env} (h : Meanwhile enforceKeys env outside env')
      (n : Nat) (w : Write) :
    Meanwhile enforceKeys env outside ((w.act (connect enforceKeys (n + 1))).runOn env').2
  | outside {outside : List (Write × Stamp)} {env' : Env} (h : Meanwhile enforceKeys env outside env')
      (w : Write) :
    Meanwhile enforceKeys env (outside ++ [(w, nextStamp env')])
      ((w.act (connect enforceKeys 0)).runOn env').2
  | quiet {outside : List (Write × Stamp)} {env' env'' : Env} (h : Meanwhile enforceKeys env outside env')
      (hlive : env''.live = env'.live) : Meanwhile enforceKeys env outside env''

/-- The tables after calls with given stamps. -/
def appliedAll (enforceKeys : Bool) (s : Store) (calls : List (Write × Stamp)) : Store :=
  calls.foldl (fun s call => call.1.applied enforceKeys call.2 s) s

theorem tables_act_of_ne (w : Write) (env : Env) {other : Nat} (h : other ≠ scope) :
    ((w.act (connect enforceKeys scope)).runOn env).2.tables other = env.tables other := by
  rw [runOn_act]
  split
  · exact (Env.tables_setTables_of_ne h).trans (Env.tables_issued _)
  · exact Env.tables_issued _

theorem live_act (w : Write) (env : Env) :
    ((w.act (connect enforceKeys 0)).runOn env).2.live = w.applied enforceKeys (nextStamp env) env.live := by
  rw [runOn_act, Write.applied]
  show _ = (w.outcome enforceKeys (nextStamp env) (env.tables 0)).toOption.getD env.live
  cases w.outcome enforceKeys (nextStamp env) (env.tables 0) <;> rfl

theorem Meanwhile.live {outside : List (Write × Stamp)} {env' : Env}
    (h : Meanwhile enforceKeys env outside env') :
    env'.live = appliedAll enforceKeys env.live outside := by
  induction h with
  | start => rfl
  | inside _ n w ih => exact (tables_act_of_ne w _ (Nat.succ_ne_zero n).symm).trans ih
  | outside _ w ih =>
    rw [live_act, ih, appliedAll, appliedAll, List.foldl_append]
    rfl
  | quiet _ hlive ih => exact hlive.trans ih

/-- A call that fails leaves all tables as they were. A call that succeeds has its `Effect` on the rows of its
table, and all other tables are as they were. After a transaction whose work fails, the live tables are what the
calls on them, made while the work was done, make of them without it. -/
theorem act_allOrNothing (enforceKeys : Bool) :
    (∀ (w : Write) (scope : Nat) (env : Env),
      let ran := (w.act (connect enforceKeys scope)).runOn env
      (∀ err, ran.1 = .error err → ∀ other, ran.2.tables other = env.tables other) ∧
      (ran.1 = .ok () → w.data.Sorted → scope ≤ env.copies.length →
        w.Effect (nextStamp env) ((env.tables scope).rows w.entity.name)
          ((ran.2.tables scope).rows w.entity.name) ∧
        (∀ table, table ≠ w.entity.name →
          (ran.2.tables scope).rows table = (env.tables scope).rows table) ∧
        ∀ other, other ≠ scope → ran.2.tables other = env.tables other)) ∧
    ∀ (work : Connection → Action DriverError Json) (env env' : Env) (err : DriverError)
      (outside : List (Write × Stamp)),
      (work (connect enforceKeys (innerScope env))).runOn (opened env 0) = (.error err, env') →
      Meanwhile enforceKeys (opened env 0) outside env' →
      let ran := ((connect enforceKeys 0).transaction work).runOn env
      ran.1 = .error err ∧ ran.2.live = appliedAll enforceKeys env.live outside := by
  refine ⟨fun w scope env => ⟨fun err herr other => ?_, fun hok hdata hopen => ?_⟩,
    fun work env env' err outside hwork hmeanwhile => ?_⟩
  · rcases houtcome : w.outcome enforceKeys (nextStamp env) (env.tables scope) with e | s
    · rw [runOn_act, houtcome]; exact Env.tables_issued _
    · rw [runOn_act, houtcome] at herr; cases herr
  · rcases houtcome : w.outcome enforceKeys (nextStamp env) (env.tables scope) with e | s
    · rw [runOn_act, houtcome] at hok; cases hok
    · have htables : ((w.act (connect enforceKeys scope)).runOn env).2.tables scope = s := by
        rw [runOn_act, houtcome]
        exact Env.tables_setTables_of_le hopen
      obtain ⟨heffect, hothers⟩ := Write.effect_of_outcome hdata houtcome
      rw [htables]
      exact ⟨heffect, hothers, fun other hne => tables_act_of_ne w env hne⟩
  · have hrun : ((connect enforceKeys 0).transaction work).runOn env = (.error err, closed env env') := by
      show (transaction 0 fun scope => work (connect enforceKeys scope)).runOn env = _
      rw [runOn_transaction, hwork]
    dsimp only
    rw [hrun]
    exact ⟨rfl, hmeanwhile.live⟩

/-! ### Two accounts -/

def twoAccounts : Env :=
  { Env.empty with
    live := OrdMap.ofList [("account", [Fields.ofList [("id", .str "1"), ("email", .str "a")],
      Fields.ofList [("id", .str "2"), ("email", .str "b")]])] }

def newAccount (id email : String) : Write :=
  .create account (.ofList [("id", .str id), ("email", .str email)])

/-- Creates an account inside of a transaction, while the first account is deleted outside of it, and fails. -/
def failingWork (c : Connection) : Action DriverError Json := do
  (newAccount "3" "c").act c
  (Write.delete account (Filter.ofId "1")).act (connect false 0)
  throw (.recordNotFound "account")

/-- A third account cannot have the address of the first one; the second can get another address; and of a
transaction that fails nothing is left, while the deletion that was made meanwhile stays. -/
theorem act_allOrNothing_accounts :
    let rows (env : Env) := env.live.rows "account"
    let taken := newAccount "3" "a"
    let changed := Write.update account (Filter.ofId "2") (.ofList [("email", .str "c")])
    ((taken.act (connect false 0)).runOn twoAccounts).2.live = twoAccounts.live ∧
      changed.Effect (nextStamp twoAccounts) (rows twoAccounts)
        (rows ((changed.act (connect false 0)).runOn twoAccounts).2) ∧
      rows (((connect false 0).transaction failingWork).runOn twoAccounts).2 =
        [Fields.ofList [("id", .str "2"), ("email", .str "b")]] := by
  intro rows taken changed
  obtain ⟨hcalls, htransaction⟩ := act_allOrNothing false
  refine ⟨?_, ?_, ?_⟩
  · exact (hcalls taken 0 twoAccounts).1 (.uniqueViolation "account" ["email"]) rfl 0
  · have hdata : changed.data.Sorted := List.pairwise_singleton ..
    exact ((hcalls changed 0 twoAccounts).2 rfl hdata (Nat.zero_le _)).1
  · have hstart : Meanwhile false (opened twoAccounts 0) [] (opened twoAccounts 0) := .start
    have hmeanwhile := (hstart.inside 0 (newAccount "3" "c")).outside (.delete account (Filter.ofId "1"))
    obtain ⟨-, hlive⟩ := htransaction failingWork twoAccounts _ _ _ rfl hmeanwhile
    show Store.rows (Env.live _) "account" = _
    rw [hlive]
    rfl

end InMemory

end EntityRest
