import EntityRest.Proofs.Http.Escaping
import EntityRest.Proofs.Routing.OwnPath
import EntityRest.Proofs.Service.OneRecord
import EntityRest.Proofs.Service.PassingOn
import EntityRest.Proofs.Store.Lone
import EntityRest.Service.Rest

/-! # Records under their paths

A record is looked for by the last segment of a path as it is written there, percent signs included. So the path
with the percent-encoded id of a record leads to this record if encoding leaves the id as it is, and only then
(`serve_record_iff`). -/

namespace EntityRest

open InMemory (connect nextStamp)

namespace App

/-- An entity of the application that everyone may work with over a path of its own, with nothing else in the
way of its requests. -/
structure ServesOpenly (app : App) (e : Entity) (enforceKeys : Bool) : Prop where
  entity : app.entities.get? e.name = some e
  connection : app.connection = connect enforceKeys 0
  isOpen : (app.pipelineOf e).IsOpen
  ownsPath : app.router.OwnsPath e.name
  middleware : ∀ m ∈ app.middleware, m.PassesOn
  plugins : ∀ p ∈ app.plugins, p.KeepsRecords

variable {app : App} {req : Request} {env env' : Env}

theorem run_handle_of_next {x : Exchange} (h : app.received req env = ((.ok .next, x), env')) :
    (app.handle req).run env =
      match (app.dispatch x.request).runOn env' with
      | (.ok res, env'') => (withStaged res x.staged.headers, env'')
      | (.error e, env'') => (app.failWith e x.request x.staged.headers).run env'' := by
  have hreceived : (runMiddleware app.middleware ⟨req, .ok .null⟩).run
      ((observeRequest req app.plugins).run env).2 = ((.ok .next, x), env') := h
  have hdispatch : StateT.run (app.dispatch x.request).run env' = (app.dispatch x.request).runOn env' := rfl
  unfold handle handleWith
  rw [run_bind, run_bind, hreceived]
  dsimp only
  rw [run_bind, hdispatch]
  rcases (app.dispatch x.request).runOn env' with ⟨_ | _, _⟩ <;> rfl

theorem ServesOpenly.dispatch_eq {e : Entity} {enforceKeys : Bool} (h : app.ServesOpenly e enforceKeys)
    {segment : String} {op : Operation} (hpath : req.path = Router.entityPath e.name none ++ "/" ++ segment)
    (hsegment : IsSegment segment) (hop : Operation.ofMethod? req.method true = some op) :
    app.dispatch req = (app.pipelineOf e).execute op (some segment) req := by
  unfold dispatch
  rw [hpath, Router.matchRequest_ownPath h.ownsPath hsegment hop]
  dsimp only
  unfold serveEntity
  dsimp only
  rw [h.entity]

end App

namespace Rest

/-- A request with a method, for a path, with a body that can be read. -/
structure Incoming.Asks (i : Incoming) (method path : String) (body : Json) : Prop where
  method : i.method = method
  path : (Http.Target.ofUri i.uri).path = path
  body : bodyOf i.body = .ok body

/-- The path of the records of an entity that have a text as their id. -/
def recordPath (e : Entity) (text : String) : String := Router.entityPath e.name none ++ "/" ++ text

/-- The relations that a request asks to be shown with its records. -/
def includes (i : Incoming) : List String :=
  (ListQuery.ofParams (FormQuery.params (Http.Target.ofUri i.uri).query)).embed

theorem includes_of_no_query {i : Incoming} (h : (Http.Target.ofUri i.uri).query = "") : includes i = [] := by
  have hempty : Text.Utf8.encode "" = [] := Text.Utf8.encode_ofList []
  refine ListQuery.embed_ofParams ?_
  rw [h, FormQuery.params, hempty]
  rfl

section Serve

variable {app : App} {userOf : Headers → Option User} {e : Entity} {enforceKeys : Bool} {i : Incoming}
variable {method segment : String} {body : Json} {op : Operation} {env : Env}

theorem serve_eq_handle (hhead : i.method ≠ "HEAD") (hconnect : i.method ≠ "CONNECT")
    (hbody : bodyOf i.body = .ok body) :
    (serve app userOf i).run env = Prod.map outgoing id ((app.handle (request userOf i body)).run env) := by
  have hkept : ∀ status, isBodiless i.method status = false := by simp [isBodiless, hhead, hconnect]
  rw [serve, App.run_bind, respond, hbody]
  simp only [hkept, Bool.false_eq_true, if_false]
  rfl

/-- An answer sends the outcome of an operation: its response with some headers, or the status of its error. -/
def Sends (outcome : Except ApiError Response × Env) (answer : Outgoing × Env) : Prop :=
  match outcome with
  | (.ok res, env) => ∃ staged, answer = (outgoing (App.withStaged res staged), env)
  | (.error err, _) => answer.1.status = err.status

/-- A request for the path of a record is answered with what the operation on this record comes to. -/
theorem exists_sends (h : app.ServesOpenly e enforceKeys) (hi : i.Asks method (recordPath e segment) body)
    (hsegment : IsSegment segment) (hop : Operation.ofMethod? method true = some op) (userOf : Headers → Option User)
    (env : Env) :
    ∃ env', env.SameRecords env' ∧
      Sends (((app.pipelineOf e).execute op (some segment) (request userOf i body)).runOn env')
        ((serve app userOf i).run env) := by
  obtain ⟨rfl, hpath, hbody⟩ := hi
  -- no operation on a record has one of the methods that are treated apart
  have hmethod : i.method ≠ "OPTIONS" ∧ i.method ≠ "HEAD" ∧ i.method ≠ "CONNECT" := by
    refine ⟨?_, ?_, ?_⟩ <;> intro heq <;> rw [heq] at hop <;> cases hop
  have hrequest : (request userOf i body).method ≠ "OPTIONS" := hmethod.1
  have hrecord : (request userOf i body).path = recordPath e segment := hpath
  obtain ⟨staged, env', hreceived, hsame⟩ := App.received_of_passesOn h.plugins h.middleware hrequest env
  have hhandle := App.run_handle_of_next hreceived
  dsimp only at hhandle
  rw [h.dispatch_eq hrecord hsegment hop] at hhandle
  refine ⟨env', hsame, ?_⟩
  rw [serve_eq_handle hmethod.2.1 hmethod.2.2 hbody, hhandle]
  rcases ((app.pipelineOf e).execute op (some segment) (request userOf i body)).runOn env' with ⟨err | res, env''⟩
  · rfl
  · exact ⟨staged.headers, rfl⟩

end Serve

/-! ### One request -/

section Request

variable {app : App} {e : Entity} {enforceKeys : Bool} {i : Incoming} {segment : String} {body : Json}
variable (h : app.ServesOpenly e enforceKeys) (userOf : Headers → Option User) (env : Env)
variable (hsegment : IsSegment segment)
include h hsegment

/-- The record whose id is the segment is answered with, with the relations that the request names. -/
theorem serve_get (hi : i.Asks "GET" (recordPath e segment) body) :
    let out := (serve app userOf i).run env
    match env.live.find? e (Filter.ofId segment) with
    | none => out.1.status = 404
    | some row => out.1.status = 200 ∧ out.1.body = (Json.obj (env.live.embed e (includes i) row)).text ∧
        out.2.live = env.live := by
  have hop : Operation.ofMethod? "GET" true = some .read := rfl
  obtain ⟨env', hsame, hsends⟩ := exists_sends h hi hsegment hop userOf env
  rw [Pipeline.execute, Pipeline.runOn_read_of_isOpen h.isOpen h.connection, hsame.tables] at hsends
  dsimp only [App.pipelineOf] at hsends
  cases hfind : env.live.find? e (Filter.ofId segment) with
  | none =>
    rw [hfind] at hsends
    exact hsends
  | some row =>
    rw [hfind] at hsends
    obtain ⟨staged, hanswer⟩ := hsends
    dsimp only
    rw [hanswer]
    exact ⟨rfl, rfl, hsame.live⟩

/-- The record whose id is the segment is changed, if it is there and its driver lets it be changed. -/
theorem serve_patch {data : Fields} (hi : i.Asks "PATCH" (recordPath e segment) body)
    (hdata : (Validation.input e .update body).toExcept = .ok data) :
    let out := (serve app userOf i).run env
    match env.live.find? e (Filter.ofId segment) with
    | none => out.1.status = 404
    | some _ =>
      match env.live.update enforceKeys e (nextStamp env) (Filter.ofId segment) data with
      | .error err => out.1.status = err.toApiError.status
      | .ok (row, s) => out.1.status = 200 ∧ out.1.body = (Json.obj row).text ∧ out.2.live = s := by
  have hop : Operation.ofMethod? "PATCH" true = some .update := rfl
  obtain ⟨env', hsame, hsends⟩ := exists_sends h hi hsegment hop userOf env
  have hrun := Pipeline.runOn_update_of_isOpen h.isOpen h.connection segment (request userOf i body) env' hdata
  rw [Pipeline.execute, hrun, hsame.nextStamp, hsame.tables] at hsends
  dsimp only [App.pipelineOf] at hsends
  cases hfind : env.live.find? e (Filter.ofId segment) with
  | none =>
    rw [hfind] at hsends
    exact hsends
  | some old =>
    rw [hfind] at hsends
    dsimp only at hsends ⊢
    cases hupdate : env.live.update enforceKeys e (nextStamp env) (Filter.ofId segment) data with
    | error err =>
      rw [hupdate] at hsends
      exact hsends
    | ok written =>
      rw [hupdate] at hsends
      obtain ⟨staged, hanswer⟩ := hsends
      dsimp only
      rw [hanswer]
      exact ⟨rfl, rfl, rfl⟩

/-- The record whose id is the segment is removed, if it is there. -/
theorem serve_delete (hi : i.Asks "DELETE" (recordPath e segment) body) :
    let out := (serve app userOf i).run env
    match env.live.find? e (Filter.ofId segment) with
    | none => out.1.status = 404
    | some _ =>
      match env.live.delete e (Filter.ofId segment) with
      | .error err => out.1.status = err.toApiError.status
      | .ok s => out.1.status = 204 ∧ out.2.live = s := by
  have hop : Operation.ofMethod? "DELETE" true = some .delete := rfl
  obtain ⟨env', hsame, hsends⟩ := exists_sends h hi hsegment hop userOf env
  rw [Pipeline.execute, Pipeline.runOn_delete_of_isOpen h.isOpen h.connection, hsame.tables] at hsends
  dsimp only [App.pipelineOf] at hsends
  cases hfind : env.live.find? e (Filter.ofId segment) with
  | none =>
    rw [hfind] at hsends
    exact hsends
  | some old =>
    rw [hfind] at hsends
    dsimp only at hsends ⊢
    cases hdelete : env.live.delete e (Filter.ofId segment) with
    | error err =>
      rw [hdelete] at hsends
      exact hsends
    | ok s =>
      rw [hdelete] at hsends
      obtain ⟨staged, hanswer⟩ := hsends
      dsimp only
      rw [hanswer]
      exact ⟨rfl, rfl⟩

end Request

/-! ### All three -/

section Record

variable {s : Store} {e : Entity} {id : String}

/-- The record is answered with, changed and removed, and nothing else is touched. -/
structure Reached (l : s.Lone e.name id) (names : List String) (row' : Fields) (got patched deleted : Outgoing × Env) :
    Prop where
  get : got.1.status = 200 ∧ got.1.body = (Json.obj (s.embed e names l.row)).text ∧ got.2.live = s
  patch : patched.1.status = 200 ∧ patched.1.body = (Json.obj row').text ∧
    patched.2.live = s.insert e.name (l.before ++ row' :: l.after)
  delete : deleted.1.status = 204 ∧ deleted.2.live = s.insert e.name (l.before ++ l.after)

/-- No record is there, or another one is answered with, changed or removed. -/
structure Missed (l : s.Lone e.name id) (names : List String) (got patched deleted : Outgoing × Env) : Prop where
  get : got.1.status = 404 ∨
    ∃ other ∈ l.before ++ l.after, got.1.status = 200 ∧ got.1.body = (Json.obj (s.embed e names other)).text
  patch : patched.1.status ≠ 200 ∨ l.row ∈ patched.2.live.rows e.name
  delete : deleted.1.status = 404 ∨ l.row ∈ deleted.2.live.rows e.name

/-- A record that is still there has not been removed. -/
theorem Missed.not_reached {l : s.Lone e.name id} {names names' : List String} {row' : Fields}
    {got patched deleted : Outgoing × Env} (h : Missed l names got patched deleted) :
    ¬Reached l names' row' got patched deleted := by
  rintro ⟨-, -, hstatus, hlive⟩
  rcases h.delete with hmissing | hmem
  · rw [hstatus] at hmissing
    cases hmissing
  · rw [hlive, Store.rows_insert, if_pos rfl] at hmem
    exact l.row_not_mem hmem

variable {app : App} {enforceKeys : Bool} {env : Env} {get patch delete : Incoming} {segment : String}
variable {getBody patchBody deleteBody : Json} {data : Fields}

theorem reached_of_asks (h : app.ServesOpenly e enforceKeys) (userOf : Headers → Option User)
    (l : env.live.Lone e.name id) (hid : IsSegment id) (hget : get.Asks "GET" (recordPath e id) getBody)
    (hpatch : patch.Asks "PATCH" (recordPath e id) patchBody)
    (hdelete : delete.Asks "DELETE" (recordPath e id) deleteBody)
    (hdata : (Validation.input e .update patchBody).toExcept = .ok data)
    (hadmits : env.live.checkRow enforceKeys e (Store.updatedRow e (nextStamp env) l.row data)
      (l.before ++ l.after) = .ok ()) :
    Reached l (includes get) (Store.updatedRow e (nextStamp env) l.row data) ((serve app userOf get).run env)
      ((serve app userOf patch).run env) ((serve app userOf delete).run env) := by
  have hgot := serve_get h userOf env hid hget
  have hpatched := serve_patch h userOf env hid hpatch hdata
  have hdeleted := serve_delete h userOf env hid hdelete
  rw [l.find?_eq] at hgot hpatched hdeleted
  rw [l.update_eq hadmits] at hpatched
  rw [l.delete_eq] at hdeleted
  exact ⟨hgot, hpatched, hdeleted⟩

theorem missed_of_asks (h : app.ServesOpenly e enforceKeys) (userOf : Headers → Option User)
    (l : env.live.Lone e.name id) (hsegment : IsSegment segment) (hne : segment ≠ id)
    (hget : get.Asks "GET" (recordPath e segment) getBody)
    (hpatch : patch.Asks "PATCH" (recordPath e segment) patchBody)
    (hdelete : delete.Asks "DELETE" (recordPath e segment) deleteBody)
    (hdata : (Validation.input e .update patchBody).toExcept = .ok data) :
    Missed l (includes get) ((serve app userOf get).run env) ((serve app userOf patch).run env)
      ((serve app userOf delete).run env) := by
  have hgot := serve_get h userOf env hsegment hget
  have hpatched := serve_patch h userOf env hsegment hpatch hdata
  have hdeleted := serve_delete h userOf env hsegment hdelete
  cases hfind : env.live.find? e (Filter.ofId segment) with
  | none =>
    rw [hfind] at hgot hpatched hdeleted
    exact ⟨.inl hgot, .inl (by rw [hpatched]; decide), .inl hdeleted⟩
  | some other =>
    rw [hfind] at hgot hpatched hdeleted
    -- another record has the segment as its id, and the requests are about that one
    refine ⟨.inr ⟨other, l.mem_of_find? hne hfind, hgot.1, hgot.2.1⟩, ?_, ?_⟩
    · cases hupdate : env.live.update enforceKeys e (nextStamp env) (Filter.ofId segment) data with
      | error err =>
        rw [hupdate] at hpatched
        exact .inl (by rw [hpatched]; exact Pipeline.status_ne_ok _)
      | ok written =>
        rw [hupdate] at hpatched
        exact .inr (hpatched.2.2 ▸ l.mem_rows_update hne hupdate)
    · cases hremoved : env.live.delete e (Filter.ofId segment) with
      | error err =>
        obtain rfl := Store.delete_error hremoved
        rw [hremoved] at hdeleted
        exact .inl hdeleted
      | ok s =>
        rw [hremoved] at hdeleted
        exact .inr (hdeleted.2 ▸ l.mem_rows_delete hne hremoved)

/-- Let a record of an open entity be the only one that its id selects, and let a client ask for it, change it in a
way that the entity and the driver admit, and remove it, each under the collection path with the percent-encoded
id behind it. The three requests reach the record exactly if encoding keeps every character of the id. If it does
not, they look for a record whose id is the encoded text: they find none, or another one. -/
theorem serve_record_iff (h : app.ServesOpenly e enforceKeys) (userOf : Headers → Option User)
    (l : env.live.Lone e.name id) (hid : id ≠ "") {keeps : Char → Bool} (hkeeps : keeps '/' = false)
    (hget : get.Asks "GET" (recordPath e (Http.percentEncode keeps id)) getBody)
    (hpatch : patch.Asks "PATCH" (recordPath e (Http.percentEncode keeps id)) patchBody)
    (hdelete : delete.Asks "DELETE" (recordPath e (Http.percentEncode keeps id)) deleteBody)
    (hdata : (Validation.input e .update patchBody).toExcept = .ok data)
    (hadmits : env.live.checkRow enforceKeys e (Store.updatedRow e (nextStamp env) l.row data)
      (l.before ++ l.after) = .ok ()) :
    let got := (serve app userOf get).run env
    let patched := (serve app userOf patch).run env
    let deleted := (serve app userOf delete).run env
    let row' := Store.updatedRow e (nextStamp env) l.row data
    (Reached l (includes get) row' got patched deleted ↔ ∀ c ∈ id.toList, keeps c = true) ∧
      ((∃ c ∈ id.toList, keeps c = false) → Missed l (includes get) got patched deleted) := by
  intro got patched deleted row'
  have hsegment := Http.isSegment_percentEncode hkeeps hid
  have hmissed : ¬(∀ c ∈ id.toList, keeps c = true) → Missed l (includes get) got patched deleted := fun hnot =>
    missed_of_asks h userOf l hsegment (fun heq => hnot (Http.percentEncode_eq_self_iff.1 heq)) hget hpatch hdelete
      hdata
  refine ⟨⟨fun hreached => ?_, fun hkept => ?_⟩, fun ⟨c, hc, hlost⟩ => hmissed fun hkept => ?_⟩
  · by_contra hnot
    exact (hmissed hnot).not_reached hreached
  · rw [Http.percentEncode_eq_self_iff.2 hkept] at hsegment hget hpatch hdelete
    exact reached_of_asks h userOf l hsegment hget hpatch hdelete hdata hadmits
  · rw [hkept c hc] at hlost
    cases hlost

end Record

/-! ### Notes -/

/-- Notes that everyone may work with. -/
def openNote : Entity where
  name := "note"
  fields := OrdMap.ofList [("text", { FieldDef.ofType .string with optional := true })]
  rules := ∅
  ownerField := none
  timestamps := true
  plugin := none

/-- An application of notes with the middleware that every application starts with. -/
def notebook : App where
  entities := OrdMap.ofList [("note", openNote)]
  places := ∅
  connection := connect false 0
  config := {}
  pluginIds := []
  entityMeta := ∅
  router := (Router.build ["note"] ∅ []).1
  middleware := Middleware.defaults {}
  hooks := []
  plugins := []

/-- Two notes, one of them with a blank in its id. -/
def twoIds : Env :=
  { Env.empty with
    live := OrdMap.ofList [("note", [
      Fields.ofList [("id", .str "a b"), ("text", .str "x")],
      Fields.ofList [("id", .str "c"), ("text", .str "y")]])] }

theorem servesOpenly_notebook : notebook.ServesOpenly openNote false where
  entity := rfl
  connection := rfl
  isOpen := ⟨nofun, fun _ _ _ hrules => nomatch hrules⟩
  ownsPath := by
    have hknown : (Router.build ["note"] ∅ []).1.knownPaths = [["notes"], ["note"]] := rfl
    have hunambiguous : (Router.build ["note"] ∅ []).1.Unambiguous := by constructor <;> rw [hknown] <;> decide
    exact hunambiguous.ownsPath (List.mem_singleton_self _) (by decide)
  middleware := Middleware.passesOn_of_mem_defaults
  plugins _ hp := absurd hp List.not_mem_nil

def noteWithBlank : twoIds.live.Lone openNote.name "a b" where
  before := []
  row := Fields.ofList [("id", .str "a b"), ("text", .str "x")]
  after := [Fields.ofList [("id", .str "c"), ("text", .str "y")]]
  rows_eq := rfl
  get?_id := rfl
  alone := List.forall_mem_singleton.2 rfl

def plainNote : twoIds.live.Lone openNote.name "c" where
  before := [Fields.ofList [("id", .str "a b"), ("text", .str "x")]]
  row := Fields.ofList [("id", .str "c"), ("text", .str "y")]
  after := []
  rows_eq := rfl
  get?_id := rfl
  alone := List.forall_mem_singleton.2 rfl

/-- A request with an empty document. -/
def emptyRequest (method uri : String) : Incoming := ⟨method, uri, ∅, "\x7b\x7d"⟩

theorem emptyRequest_asks (method : String) {uri path : String} (h : (Http.Target.ofUri uri).path = path) :
    (emptyRequest method uri).Asks method path (.obj []) := by
  refine ⟨rfl, h, ?_⟩
  have hfull : isBlankBody "\x7b\x7d" = false := by decide
  have hread : Json.ofText? "\x7b\x7d" = some (.obj []) := rfl
  show bodyOf "\x7b\x7d" = _
  rw [bodyOf, hfull, hread]
  rfl

/-- The note whose id has no blank is reached under its path, and the other one is not. -/
theorem serve_record_iff_notes :
    let answered (method uri : String) := (serve notebook (fun _ => none) (emptyRequest method uri)).run twoIds
    Reached plainNote [] (plainNote.row.insert "updatedAt" (.str (Action.timeText 0))) (answered "GET" "/notes/c")
        (answered "PATCH" "/notes/c") (answered "DELETE" "/notes/c") ∧
      Missed noteWithBlank [] (answered "GET" "/notes/a%20b") (answered "PATCH" "/notes/a%20b")
        (answered "DELETE" "/notes/a%20b") := by
  intro answered
  have hslash : Http.isUnreserved '/' = false := by decide
  have hkept : ∀ c ∈ "c".toList, Http.isUnreserved c = true := List.forall_mem_singleton.2 rfl
  have hdata : (Validation.input openNote .update (.obj [])).toExcept = .ok [] := rfl
  have hplain (method : String) : (emptyRequest method "/notes/c").Asks method
      (recordPath openNote (Http.percentEncode Http.isUnreserved "c")) (.obj []) :=
    emptyRequest_asks method (by decide)
  have hblank (method : String) : (emptyRequest method "/notes/a%20b").Asks method
      (recordPath openNote (Http.percentEncode Http.isUnreserved "a b")) (.obj []) :=
    emptyRequest_asks method (by decide)
  obtain ⟨hreached, -⟩ := serve_record_iff servesOpenly_notebook (fun _ => none) plainNote (by decide) hslash
    (hplain "GET") (hplain "PATCH") (hplain "DELETE") hdata rfl
  obtain ⟨-, hmissed⟩ := serve_record_iff servesOpenly_notebook (fun _ => none) noteWithBlank (by decide) hslash
    (hblank "GET") (hblank "PATCH") (hblank "DELETE") hdata rfl
  rw [includes_of_no_query (by decide)] at hreached hmissed
  exact ⟨hreached.2 hkept, hmissed ⟨' ', by decide, by decide⟩⟩

end Rest

end EntityRest
