import EntityRest.Proofs.Access.Check
import EntityRest.Proofs.Service.Conformance

/-! # Writing back what was read

A row that requests have stored is valid input for itself: its fields stand in the order of their keys, under
each client key there is a value that the field accepts, and it clashes with no other row (`Orderly`). So a
client that reads a row and sends it back changes nothing but the time of its last change (`write_back`). -/

namespace EntityRest

/-- What requests make of a table that was empty. -/
structure Orderly (e : Entity) (rows : List Fields) : Prop where
  sorted : ∀ row ∈ rows, row.Sorted
  conforms : ∀ row ∈ rows, Conforms e row
  distinct : Store.Distinct e rows

section Rows

variable {e : Entity} {row : Fields} {rows : List Fields} (hnodup : (e.inputFields.map Prod.fst).Nodup)
  (hfree : ∀ key ∈ e.inputFields.map Prod.fst, key ∉ driverColumns)
include hfree

theorem ne_updatedAt_of_isIdentity {column : String} (h : Store.IsIdentity e column) :
    column ≠ "updatedAt" := by
  rcases h with rfl | ⟨d, hd, -, hscalar⟩
  · decide
  · have hrelation : d.relation = none := by simpa [FieldDef.isRelation] using hscalar
    have hkey : column ∉ driverColumns :=
      hfree column (List.mem_map.2 ⟨_, Entity.mem_inputFields_of_scalar hd hrelation, rfl⟩)
    rintro rfl
    exact hkey (by decide)

include hnodup

theorem Orderly.accepts (h : Orderly e rows) (hrow : row ∈ rows) :
    ∀ c ∈ Validation.clientFields e, ∀ v, row.get? c.1 = some v → Validation.Accepts c.2 v := by
  rintro ⟨key, d⟩ hc v hget
  obtain ⟨hinput, howner⟩ := Validation.mem_clientFields.1 hc
  exact (h.conforms row hrow).accepts hnodup hfree (Lookup.mem_of_lookup_eq_some hget) hinput howner

/-- An update of a row with its own fields goes through, and leaves the row with a new time. -/
theorem Orderly.update_self {s : Store} {f : Filter} (h : Orderly e (s.rows e.name))
    (hfind : s.find? e f = some row) (stamp : Stamp) :
    ∃ i, (s.rows e.name)[i]? = some row ∧
      s.update false e stamp f (Validation.input e .update (.obj row)).data =
        .ok (Store.touched e stamp row,
          s.insert e.name ((s.rows e.name).set i (Store.touched e stamp row))) := by
  have hmem : row ∈ s.rows e.name := List.mem_of_find?_eq_some hfind
  have hdata := (Validation.input_update_of_accepts (h.accepts hnodup hfree hmem)).2
  have hrow := Store.updatedRow_eq_touched (h.sorted row hmem) hdata e stamp
  rw [← hrow]
  refine Store.update_of_find hfind fun i hi other hother => ?_
  obtain ⟨hlt, rfl⟩ := List.getElem?_eq_some_iff.1 hi
  rw [hrow]
  -- the time is no identity column, so the row stays apart from the others
  refine (h.distinct.apart_of_mem_eraseIdx hlt hother).congr fun column hcolumn => ?_
  exact Store.get?_touched (ne_updatedAt_of_isIdentity hfree hcolumn) e stamp

end Rows

namespace Pipeline

open InMemory (connect nextStamp)

section Written

variable {p : Pipeline} {enforceKeys : Bool} {req : Request} {s s' : Store}

theorem Written.step (h : p.Written enforceKeys req s s') :
    Store.Step (fun _ => p.entity) enforceKeys s s' := by
  cases h with
  | create _ _ hcreate => exact .create rfl hcreate
  | update _ _ _ hupdate => exact .update rfl hupdate
  | delete _ _ hdelete => exact .delete rfl hdelete

theorem sorted_withOwner (p : Pipeline) {data : Fields} (h : data.Sorted) (user : Option User) :
    (p.withOwner user data).Sorted := by
  unfold withOwner
  split
  · exact h.insert _ _
  · exact h

theorem Written.sorted (h : p.Written enforceKeys req s s')
    (hs : ∀ row ∈ s.rows p.entity.name, row.Sorted) : ∀ row ∈ s'.rows p.entity.name, row.Sorted := by
  cases h with
  | create hdata _ hcreate =>
    have hsorted := sorted_withOwner p (Validation.sorted_of_toExcept hdata) req.user
    exact Store.forall_rows_create hs (Store.sorted_newRow hsorted _ _) hcreate
  | update _ _ _ hupdate =>
    exact Store.forall_rows_update hs (fun _ hold => Store.sorted_updatedRow hold _ _ _) hupdate
  | delete _ _ hdelete => exact Store.forall_rows_delete hs hdelete

theorem Written.orderly (h : p.Written enforceKeys req s s') (hdefaults : AcceptsDefaults p.entity)
    (hs : Orderly p.entity (s.rows p.entity.name)) : Orderly p.entity (s'.rows p.entity.name) where
  sorted := h.sorted hs.sorted
  conforms := h.conforms hdefaults hs.conforms
  distinct := h.step.keeps (fun _ _ _ => Store.RowsStep.distinct) hs.distinct

end Written

variable {e : Entity} {enforceKeys : Bool} {scope : Nat} {env : Env} {id : String} {req : Request}
  {row : Fields}

theorem orderly_run (hdefaults : AcceptsDefaults e) (hempty : (env.tables scope).rows e.name = [])
    (calls : List Call) :
    Orderly e (((run ⟨e, connect enforceKeys scope, []⟩ env calls).tables scope).rows e.name) := by
  refine run_keeps (P := fun s => Orderly e (s.rows e.name)) (fun _ _ _ hwritten => hwritten.orderly hdefaults)
    calls ?_
  rw [hempty]
  exact ⟨fun _ h => absurd h List.not_mem_nil, fun _ h => absurd h List.not_mem_nil, .nil⟩

/-! ### One read and one update -/

theorem runOn_read (hinclude : req.query.get? "include" = none)
    (hfind : (env.tables scope).find? e (Filter.ofId id) = some row)
    (hallows : Access.Allows e .read ⟨e.name, .read, req.user, some (.obj row), none⟩) :
    (read ⟨e, connect enforceKeys scope, []⟩ id req).runOn env = (.ok (.ok (.obj row)), env) := by
  unfold read
  simp only [runHooks, pure_bind, ListQuery.embed_ofParams hinclude]
  rw [if_neg (by simp [context]), Action.runOn_bind, runOn_fetch rfl, hfind]
  dsimp only [Option.elim_some]
  rw [Action.runOn_bind, runOn_authorize, Access.check_eq_ok_iff.2 hallows]
  rfl

theorem runOn_update {data row' : Fields} {s : Store}
    (hfind : (env.tables scope).find? e (Filter.ofId id) = some row)
    (hdata : (Validation.input e .update req.body).toExcept = .ok data)
    (hallows : Access.Allows e .update ⟨e.name, .update, req.user, some (.obj row), some (.obj data)⟩)
    (hupdate : (env.tables scope).update enforceKeys e (nextStamp env) (Filter.ofId id) data = .ok (row', s)) :
    (update ⟨e, connect enforceKeys scope, []⟩ id req).runOn env =
      (.ok (.ok (.obj row')), { env with issued := env.issued + 1 }.setTables scope s) := by
  unfold update
  dsimp only
  rw [Action.runOn_bind, runOn_fetch rfl, hfind]
  dsimp only [Option.elim_some]
  rw [hdata]
  show (authorize _ _ _ _ _ >>= _).runOn env = _
  rw [Action.runOn_bind, runOn_authorize, Access.check_eq_ok_iff.2 hallows]
  simp only [runHooks, pure_bind]
  show (onDriver (Connection.update _ _ _ _) >>= _).runOn env = _
  rw [InMemory.update_connect, Action.runOn_bind, onDriver, Action.runOn_mapError,
    InMemory.runOn_writing_of_ok (by rw [hupdate]; rfl)]
  rfl

/-! ### The round trip -/

/-- In every table that requests have filled from empty on, without hooks and foreign keys, a row that its
id selects can be sent back as it was read, if the rules let it be read and updated: the update succeeds, and
all tables stay as they are but for the time of the last change in that row. -/
theorem write_back (hnodup : (e.inputFields.map Prod.fst).Nodup)
    (hfree : ∀ key ∈ e.inputFields.map Prod.fst, key ∉ ["id", "createdAt", "updatedAt"])
    (hdefaults : AcceptsDefaults e) (hempty : (env.tables scope).rows e.name = []) (calls : List Call)
    {get put : Request} (hinclude : get.query.get? "include" = none) (hbody : put.body = .obj row) :
    let p : Pipeline := ⟨e, connect false scope, []⟩
    let reached := p.run env calls
    let rows := (reached.tables scope).rows e.name
    let sent := (Validation.input e .update put.body).data
    let row' := Store.touched e (nextStamp reached) row
    (reached.tables scope).find? e (Filter.ofId id) = some row →
      Access.Allows e .read ⟨e.name, .read, get.user, some (.obj row), none⟩ →
      Access.Allows e .update ⟨e.name, .update, put.user, some (.obj row), some (.obj sent)⟩ →
      (p.execute .read (some id) get).runOn reached = (.ok (.ok (.obj row)), reached) ∧
        ∃ written i, (p.execute .update (some id) put).runOn reached = (.ok (.ok (.obj row')), written) ∧
          rows[i]? = some row ∧ (written.tables scope).rows e.name = rows.set i row' ∧
          (∀ table, table ≠ e.name → (written.tables scope).rows table = (reached.tables scope).rows table) ∧
          ∀ other, other ≠ scope → written.tables other = reached.tables other := by
  intro p reached rows sent row' hfind hread hupdate
  have horderly : Orderly e rows := orderly_run hdefaults hempty calls
  have hmem : row ∈ rows := List.mem_of_find?_eq_some hfind
  -- a scope that is not open has no rows, and a write to it would be lost
  have hopen : reached.tables scope ≠ ∅ := fun hnone => by
    have hnil : rows = [] := congrArg (Store.rows · e.name) hnone
    rw [hnil] at hmem
    cases hmem
  have hdata : (Validation.input e .update put.body).toExcept = .ok sent := by
    show _ = Except.ok (Validation.input e .update put.body).data
    rw [hbody]
    exact Validation.toExcept_update_of_accepts (horderly.accepts hnodup hfree hmem)
  obtain ⟨i, hi, hset⟩ := horderly.update_self hnodup hfree hfind (nextStamp reached)
  rw [← hbody] at hset
  refine ⟨runOn_read hinclude hfind hread, _, i, runOn_update hfind hdata hupdate hset, hi, ?_,
    fun table htable => ?_, fun other hother => ?_⟩
  · rw [Env.tables_setTables_of_ne_empty (by rwa [Env.tables_issued]), Store.rows_insert, if_pos rfl]
  · rw [Env.tables_setTables_of_ne_empty (by rwa [Env.tables_issued]), Store.rows_insert, if_neg htable]
  · rw [Env.tables_setTables_of_ne hother, Env.tables_issued]

/-! ### Members who may change themselves -/

def member : Entity where
  name := "member"
  fields := OrdMap.ofList
    [("user", { FieldDef.ofType .string with
        relation := some ⟨.belongsTo, "user", "userId", "id", none⟩ }),
      ("email", { FieldDef.ofType .string with unique := true }),
      ("role", { FieldDef.ofType .string with default := some (.str "guest") })]
  rules := EntityDecl.ownerRules "userId"
  ownerField := some "userId"
  timestamps := true
  plugin := none

def memberRequest (user : String) (body : Fields) : Request :=
  { Request.ofPath "POST" "/members" with body := .obj body, user := some (.ofId user) }

/-- Two users become members. -/
def memberCalls : List Call :=
  [⟨.create, none, memberRequest "alice" [("email", .str "a")]⟩,
    ⟨.create, none, memberRequest "bob" [("email", .str "b")]⟩]

/-- What is stored of the first member, with the time of the last change. -/
def storedMember (time : Nat) : Fields :=
  .ofList [("id", .str (Action.idText 0)), ("email", .str "a"), ("role", .str "guest"),
    ("userId", .str "alice"), ("createdAt", .str (Action.timeText 0)), ("updatedAt", .str (Action.timeText time))]

theorem acceptsDefaults_member : AcceptsDefaults member := by
  intro name d v hd hv
  have hfields : member.fields.toList = [("user", _), ("email", _), ("role", _)] := rfl
  have hmem := OrdMap.get?_eq_some_iff.1 hd
  rw [hfields] at hmem
  simp only [List.mem_cons, Prod.mk.injEq, List.not_mem_nil, or_false] at hmem
  rcases hmem with ⟨-, rfl⟩ | ⟨-, rfl⟩ | ⟨-, rfl⟩ <;> cases hv
  exact ⟨rfl, nofun, fun _ => rfl⟩

/-- The environment after these calls, from no member at all. -/
def members : Env := run ⟨member, connect false 0, []⟩ Env.empty memberCalls

/-- The first member reads the own record and sends it back, though it holds an id, an owner and times. -/
theorem write_back_member :
    let p : Pipeline := ⟨member, connect false 0, []⟩
    let rows := (members.tables 0).rows "member"
    ∃ written i, (p.execute .update (some (Action.idText 0)) (memberRequest "alice" (storedMember 0))).runOn
        members = (.ok (.ok (.obj (storedMember 2))), written) ∧
      rows[i]? = some (storedMember 0) ∧ (written.tables 0).rows "member" = rows.set i (storedMember 2) := by
  intro p rows
  have hfind : (members.tables 0).find? member (Filter.ofId (Action.idText 0)) = some (storedMember 0) := rfl
  have hread : Access.Allows member .read
      ⟨"member", .read, some (.ofId "alice"), some (.obj (storedMember 0)), none⟩ := Access.check_eq_ok_iff.1 rfl
  have hupdate : Access.Allows member .update ⟨"member", .update, some (.ofId "alice"),
      some (.obj (storedMember 0)),
      some (.obj (Validation.input member .update (.obj (storedMember 0))).data)⟩ := Access.check_eq_ok_iff.1 rfl
  have hinclude : (memberRequest "alice" []).query.get? "include" = none := rfl
  have hbody : (memberRequest "alice" (storedMember 0)).body = .obj (storedMember 0) := rfl
  obtain ⟨-, written, i, hrun, hi, hset, -⟩ := write_back (by decide) (by decide) acceptsDefaults_member rfl
    memberCalls hinclude hbody hfind hread hupdate
  exact ⟨written, i, hrun, hi, hset⟩

end Pipeline

end EntityRest
