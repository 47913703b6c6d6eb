import EntityRest.Proofs.Query.Comparator
import EntityRest.Proofs.Service.Confinement
import EntityRest.Proofs.Service.Read
import EntityRest.Proofs.Store.Embedding
import EntityRest.Service.App

/-! # What includes put into a response

Under the name of an included relation stand the stored rows that relate to the record, all of them or the first one.
The rules of the entity that is asked for decide whether there is an answer, and nothing else does: all other entities
of an application, those that are embedded among them, can be exchanged, their rules included, and the answer stays
the same (`includes_eq_related`). -/

namespace EntityRest

namespace Pipeline

variable {p : Pipeline} {enforceKeys : Bool} {scope : Nat} {id : String} {req : Request}
variable {env env' : Env} {ctx : HookContext}

/-- What the rules of an operation that writes nothing are asked, with the stored record if there is one. -/
abbrev asked (e : Entity) (op : Operation) (user : Option User) (record : Option Json) : RuleContext :=
  ⟨e.name, op, user, record, none⟩

/-- A record as a request with includes shows it. -/
def shown (p : Pipeline) (req : Request) (s : Store) (row : Fields) : Json :=
  .obj (s.embed p.entity (ListQuery.ofParams req.query).embed row)

theorem not_allows_of_check {e : Entity} {op : Operation} {ctx : RuleContext} {denial : Denial}
    (h : Access.check e op ctx = .error denial) : ¬Access.Allows e op ctx := fun hallows => by
  rw [Access.check_eq_ok_iff.2 hallows] at h
  cases h

/-- What is left of a list request once its rows are found and sorted: its page, and the hooks after it. -/
def finishRows (p : Pipeline) (req : Request) (ctx : HookContext) (s : Store) (rows : List Fields) :
    Action ApiError Response :=
  let q := ListQuery.ofParams req.query
  let data := (Store.window (some q.skip) (some q.take) rows).map (p.shown req s)
  p.finishList ctx (q.filter.union ctx.filter) (page data rows.length q)

/-- A list is answered if the list rules of its own entity hold, and with the page that the hooks after it make of the
sorted rows, if sorting can rely on the comparison of them. -/
theorem runOn_list_eq_ok_iff (hconnection : p.connection = InMemory.connect enforceKeys scope)
    (hbefore : (runHooks p.hooks (.before .list) (p.context .list req)).runOn env = (.ok ctx, env'))
    (hgoing : ctx.stopped = false) :
    let s := env'.tables scope
    let q := ListQuery.ofParams req.query
    let found := (s.rows p.entity.name).filter (Filter.accepts (q.filter.union ctx.filter))
    q.sort.Legal found →
      ∃ rows, q.sort.Sorts found rows ∧ ∀ response env'',
        (p.list req).runOn env = (.ok response, env'') ↔
          Access.Allows p.entity .list (asked p.entity .list req.user none) ∧
            (p.finishRows req ctx s rows).runOn env' = (.ok response, env'') := by
  intro s q found hlegal
  have hsorts := Sorting.sorts_sortRecords hlegal
  refine ⟨_, hsorts, fun response env'' => ?_⟩
  have hconfines : p.Confines req ctx.filter env ctx env' := ⟨hbefore, hgoing, rfl⟩
  cases hcheck : Access.check p.entity .list (asked p.entity .list req.user none) with
  | error denial =>
    rw [list, Action.runOn_bind, runOn_authorize, hcheck]
    simp [Except.mapError, not_allows_of_check hcheck]
  | ok u =>
    have hdata : (s.search p.entity (searchOf q ctx.filter)).map Json.obj =
        (Store.window (some q.skip) (some q.take) (q.sort.sortRecords found)).map (p.shown req s) := List.map_map
    have htotal : s.count p.entity (some (q.filter.union ctx.filter)) = (q.sort.sortRecords found).length :=
      hsorts.perm.length_eq.symm
    rw [and_iff_right (Access.check_eq_ok_iff.1 hcheck), finishRows, ← hdata, ← htotal,
      hconfines.runOn_list hconnection hcheck]

/-- What is left of a read request once its record is there: the hooks after it. -/
def finishRead (p : Pipeline) (ctx : HookContext) (record : Json) : Action ApiError Response := do
  let ctx ← runHooks p.hooks (.after .read) { ctx with resource := some record }
  pure (.ok (answer ctx))

/-- A read is answered if a record is found of which the read rules of its own entity hold, and with what the hooks
after it make of that record. -/
theorem runOn_read_eq_ok_iff (hconnection : p.connection = InMemory.connect enforceKeys scope)
    (hbefore : (runHooks p.hooks (.before .read) (p.readContext id req)).runOn env = (.ok ctx, env'))
    (hgoing : ctx.stopped = false) (response : Response) (env'' : Env) :
    let s := env'.tables scope
    (p.read id req).runOn env = (.ok response, env'') ↔
      ∃ row, s.find? p.entity ctx.filter = some row ∧
        Access.Allows p.entity .read (asked p.entity .read req.user (some (.obj row))) ∧
        (p.finishRead ctx (p.shown req s row)).runOn env' = (.ok response, env'') := by
  intro s
  rw [read, Action.runOn_bind, hbefore]
  dsimp only
  rw [if_neg (by simp [hgoing]), Action.runOn_bind, runOn_fetch hconnection]
  cases hfind : s.find? p.entity ctx.filter with
  | none => simp
  | some row =>
    simp only [Option.elim_some, Option.some.injEq, exists_eq_left']
    rw [Action.runOn_bind, runOn_authorize]
    cases hcheck : Access.check p.entity .read (asked p.entity .read req.user (some (.obj row))) with
    | error denial => simp [Except.mapError, not_allows_of_check hcheck]
    | ok u =>
      rw [and_iff_right (Access.check_eq_ok_iff.1 hcheck)]
      dsimp only [Except.mapError]
      split
      · next hnames =>
        rw [pure_bind, shown, List.isEmpty_iff.1 hnames]
        rfl
      · rw [Action.runOn_bind, runOn_fetchWith hconnection hfind]
        rfl

/-- Where the router leads to an operation on an entity that has no handler of its own, this entity is all that the
request sees of the entities of the application. -/
theorem dispatch_eq_execute {app : App} {e : Entity} {m : EntityMatch}
    (hmatch : app.router.matchRequest req.method req.path = .entity m) (hname : m.entity = e.name)
    (hhandler : m.customHandler = none) {entities : OrdMap String Entity} (he : entities.get? e.name = some e) :
    ({ app with entities } : App).dispatch req = (app.pipelineOf e).execute m.operation m.id req := by
  unfold App.dispatch
  dsimp only
  rw [hmatch]
  unfold App.serveEntity
  dsimp only
  rw [hhandler, hname]
  dsimp only
  rw [he]
  rfl

/-- Let the hooks before a list or a read go through. Then the request is answered exactly if the rules of its own
entity hold, and with what the hooks after it make of the rows that it finds; for a list, if sorting can rely on
their comparison. Where null does not meet null, an included relation shows the rows that relate to the record. Which
entities the application has besides, and what their rules are, makes no difference. -/
theorem includes_eq_related (app : App) (e : Entity)
    (hconnection : app.connection = InMemory.connect enforceKeys scope) (req : Request) :
    let p := app.pipelineOf e
    let q := ListQuery.ofParams req.query
    (∀ env ctx env',
      (runHooks p.hooks (.before .list) (p.context .list req)).runOn env = (.ok ctx, env') →
      ctx.stopped = false →
      let s := env'.tables scope
      let found := (s.rows e.name).filter (Filter.accepts (q.filter.union ctx.filter))
      q.sort.Legal found →
        ∃ rows, q.sort.Sorts found rows ∧ ∀ response env'',
          (p.list req).runOn env = (.ok response, env'') ↔
            Access.Allows e .list (asked e .list req.user none) ∧
              (p.finishRows req ctx s rows).runOn env' = (.ok response, env'')) ∧
    (∀ id env ctx env' response env'',
      (runHooks p.hooks (.before .read) (p.readContext id req)).runOn env = (.ok ctx, env') →
      ctx.stopped = false →
      let s := env'.tables scope
      (p.read id req).runOn env = (.ok response, env'') ↔
        ∃ row, s.find? e ctx.filter = some row ∧
          Access.Allows e .read (asked e .read req.user (some (.obj row))) ∧
          (p.finishRead ctx (p.shown req s row)).runOn env' = (.ok response, env'')) ∧
    (∀ (s : Store) (row : Fields),
      (∀ k, Store.included? e q.embed k = none → (p.shown req s row).field? k = row.get? k) ∧
      ∀ name r, Store.included? e q.embed name = some r →
        (∀ other ∈ s.rows r.target, r.nullsMeet row other = false) →
        (p.shown req s row).field? name = some (r.embedded ((s.rows r.target).filter (r.relates row)))) ∧
    ∀ m, app.router.matchRequest req.method req.path = .entity m → m.entity = e.name → m.customHandler = none →
      ∀ entities : OrdMap String Entity, entities.get? e.name = some e →
        ({ app with entities } : App).dispatch req = p.execute m.operation m.id req := by
  intro p q
  refine ⟨fun env ctx env' hbefore hgoing => ?_, fun id env ctx env' response env'' hbefore hgoing => ?_,
    fun s row => ⟨fun k hk => ?_, fun name r hr hno => ?_⟩, fun m hmatch hname hhandler entities he => ?_⟩
  · exact runOn_list_eq_ok_iff (p := p) hconnection hbefore hgoing
  · exact runOn_read_eq_ok_iff (p := p) hconnection hbefore hgoing response env''
  · show (s.embed e q.embed row).get? k = _
    rw [Store.get?_embed, hk, Option.map_none, Option.none_or]
  · exact Store.get?_embed_of_no_nulls hr hno
  · exact dispatch_eq_execute hmatch hname hhandler he

/-! ### A post and its author -/

/-- Users, whom only administrators may read. -/
def guardedUser : Entity := { Entity.placeholder "user" with rules := OrdMap.ofList [(.read, [.admin])] }

/-- Posts, which everyone may read. -/
def authoredPost : Entity :=
  { Entity.placeholder "post" with
    fields := OrdMap.ofList [("author",
      RelationSpec.define ⟨.belongsTo, .named "user", none, none, none, false⟩ "author" "post" "user")] }

def blog : App where
  entities := OrdMap.ofList [("user", guardedUser), ("post", authoredPost)]
  places := ∅
  connection := InMemory.connect false 0
  config := {}
  pluginIds := []
  entityMeta := ∅
  router := (Router.build ["user", "post"] ∅ []).1
  middleware := []
  hooks := []
  plugins := []

def ann : Fields := Fields.ofList [("id", .str "u1"), ("name", .str "Ann")]

def postOfAnn : Fields := Fields.ofList [("authorId", .str "u1"), ("id", .str "p1")]

def onePost : Env := { Env.empty with live := OrdMap.ofList [("user", [ann]), ("post", [postOfAnn])] }

/-- Asks for the posts with their authors, without a user. -/
def postsWithAuthors : Request :=
  { Request.ofPath "GET" "/posts" with query := OrdMap.ofList [("include", "author")] }

/-- Whatever the rules for users are, the list of posts shows the author. -/
theorem includes_eq_related_posts :
    ∃ record, record.field? "author" = some (.obj ann) ∧ ∀ rules,
      let entities := blog.entities.insert "user" { guardedUser with rules }
      (({ blog with entities } : App).dispatch postsWithAuthors).runOn onePost =
        (.ok (.ok (page [record] 1 (ListQuery.ofParams postsWithAuthors.query))), onePost) := by
  have hconnection : blog.connection = InMemory.connect false 0 := rfl
  obtain ⟨hlist, -, hshown, hdispatch⟩ := includes_eq_related blog authoredPost hconnection postsWithAuthors
  have hnulls : ∀ other ∈ onePost.live.rows "user",
      Relation.nullsMeet ⟨.belongsTo, "user", "authorId", "id", none⟩ postOfAnn other = false :=
    List.forall_mem_singleton.2 rfl
  have hlegal : (ListQuery.ofParams postsWithAuthors.query).sort.Legal [postOfAnn] :=
    Sorting.legal_of_comparable fun f hf => absurd hf List.not_mem_nil
  obtain ⟨rows, hsorts, hrun⟩ := hlist onePost _ onePost rfl rfl hlegal
  obtain rfl := List.perm_singleton.1 hsorts.perm
  have hopen : Access.Allows authoredPost .list (asked authoredPost .list postsWithAuthors.user none) :=
    fun rules hrules => by cases hrules
  have hmatch : blog.router.matchRequest postsWithAuthors.method postsWithAuthors.path =
      .entity ⟨"post", .list, none, none, none⟩ := rfl
  refine ⟨_, (hshown onePost.live postOfAnn).2 "author" _ rfl hnulls, fun rules => ?_⟩
  intro entities
  have hpost : entities.get? authoredPost.name = some authoredPost := rfl
  rw [hdispatch _ hmatch rfl rfl entities hpost]
  exact (hrun _ _).2 ⟨hopen, rfl⟩

/-- Without a user, the list of posts shows an author whom nobody but an administrator may read. -/
theorem unreadable_author :
    ∃ record total, (blog.dispatch postsWithAuthors).runOn onePost =
        (.ok (.ok (page [record] total (ListQuery.ofParams postsWithAuthors.query))), onePost) ∧
      record.field? "author" = some (.obj ann) ∧
      ¬Access.Allows guardedUser .read (asked guardedUser .read postsWithAuthors.user (some (.obj ann))) := by
  refine ⟨_, _, rfl, rfl, fun hallows => ?_⟩
  have hadmin := hallows _ rfl .admin (List.mem_singleton_self _)
  cases hadmin

end Pipeline

end EntityRest
