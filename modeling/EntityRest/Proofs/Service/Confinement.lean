import EntityRest.Proofs.Hook.Chain
import EntityRest.Proofs.Query.Sort
import EntityRest.Proofs.Query.Tests
import EntityRest.Proofs.Service.Pipeline

/-! # Lists that a hook confines

A hook before a list can leave a filter, and no query gets past it: two sets of tables in which this filter
sees the same rows cannot be told apart by a list request that embeds nothing (`list_confined`). The merged
filter keeps all tests of the hook's one, so that the search and the count are made on the rows that this
one sees (`search_searchOf_eq`, `count_union_eq`). -/

namespace EntityRest

/-- The rows that a filter lets be seen, in their order. -/
def Store.visible (s : Store) (e : Entity) (f : Filter) : List Fields := (s.rows e.name).filter f.accepts

section Visible

variable {s : Store} {e : Entity} {f : Filter} {q : ListQuery}

theorem Store.visible_union (g : Filter) :
    s.visible e (g.union f) = (s.visible e f).filter (Filter.accepts (g.union f)) :=
  Filter.filter_union g f _

theorem Store.embed_nil : s.embed e [] = id := rfl

theorem Pipeline.search_searchOf_eq (hembed : q.embed = []) :
    s.search e (searchOf q f) = Store.window (some q.skip) (some q.take)
      (q.sort.sortRecords ((s.visible e f).filter (Filter.accepts (q.filter.union f)))) := by
  rw [← Store.visible_union]
  show (Store.window _ _ (q.sort.sortRecords (s.visible e (q.filter.union f)))).map (s.embed e q.embed) = _
  rw [hembed, Store.embed_nil, List.map_id]
  rfl

theorem Pipeline.count_union_eq (g : Filter) :
    s.count e (some (g.union f)) = (s.visible e f).countP (Filter.accepts (g.union f)) := by
  rw [List.countP_eq_length_filter, ← Store.visible_union]
  rfl

theorem Store.mem_of_mem_window {α : Type} {skip take : Option Nat} {l : List α} {a : α}
    (h : a ∈ window skip take l) : a ∈ l := by
  cases take with
  | none => exact List.mem_of_mem_drop h
  | some n => exact List.mem_of_mem_drop (List.mem_of_mem_take h)

end Visible

namespace Pipeline

variable {p : Pipeline} {req : Request} {f : Filter}

/-- In an environment the hooks before a list go through without stopping, and leave a filter. -/
structure Confines (p : Pipeline) (req : Request) (f : Filter) (env : Env) (ctx : HookContext)
    (env' : Env) : Prop where
  run : (runHooks p.hooks (.before .list) (p.context .list req)).runOn env = (.ok ctx, env')
  going : ctx.stopped = false
  filter : ctx.filter = f

/-- What is left of a list request once its page is known: the hooks after it. -/
def finishList (p : Pipeline) (ctx : HookContext) (filter : Filter) (body : Json) :
    Action ApiError Response := do
  let ctx ← runHooks p.hooks (.after .list) { ctx with filter, resource := some body }
  pure (.ok (answer ctx))

theorem finishList_of_no_hook {ctx : HookContext} {filter : Filter} {body : Json}
    (h : ∀ hook ∈ p.hooks, hook.event ≠ .after .list) : p.finishList ctx filter body = pure (.ok body) := by
  rw [finishList, runHooks_of_forall_ne h, pure_bind]
  rfl

/-- A list request that its rules let pass and its hooks let go on makes a page of the rows that these let
be seen. -/
theorem Confines.runOn_list {enforceKeys : Bool} {scope : Nat} {env env' : Env} {ctx : HookContext}
    (h : p.Confines req f env ctx env') (hconnection : p.connection = InMemory.connect enforceKeys scope)
    (hallows : Access.check p.entity .list ⟨p.entity.name, .list, req.user, none, none⟩ = .ok ()) :
    let q := ListQuery.ofParams req.query
    let s := env'.tables scope
    (p.list req).runOn env = (p.finishList ctx (q.filter.union f)
      (page ((s.search p.entity (searchOf q f)).map .obj) (s.count p.entity (some (q.filter.union f))) q)).runOn
        env' := by
  intro q s
  unfold list
  rw [Action.runOn_bind, runOn_authorize, hallows]
  show (runHooks p.hooks (.before .list) (p.context .list req) >>= _).runOn env = _
  rw [Action.runOn_bind, h.run]
  dsimp only
  rw [if_neg (by simp [h.going]), h.filter, hconnection]
  rfl

section Confined

variable {enforceKeys : Bool} {scope : Nat} {env₁ env₂ env₁' env₂' : Env} {ctx₁ ctx₂ : HookContext}

/-- What the hooks before a list leave as their filter cannot be escaped. Let them do this in two
environments, without making a difference between rows that this filter sees and the same rows elsewhere.
Then a list request that embeds nothing is denied in both, or in both it gets the same page, of rows and a
number of rows that the filter sees; only the hooks after the list can tell the two apart. -/
theorem list_confined (hconnection : p.connection = InMemory.connect enforceKeys scope)
    (hinclude : req.query.get? "include" = none)
    (h₁ : p.Confines req f env₁ ctx₁ env₁') (h₂ : p.Confines req f env₂ ctx₂ env₂')
    (hblind : (env₁.tables scope).visible p.entity f = (env₂.tables scope).visible p.entity f →
      (env₁'.tables scope).visible p.entity f = (env₂'.tables scope).visible p.entity f)
    (hsame : (env₁.tables scope).visible p.entity f = (env₂.tables scope).visible p.entity f) :
    let q := ListQuery.ofParams req.query
    let asked := Filter.accepts (q.filter.union f)
    let seen := (env₁'.tables scope).visible p.entity f
    (∃ err, (p.list req).runOn env₁ = (.error err, env₁) ∧ (p.list req).runOn env₂ = (.error err, env₂)) ∨
      ∃ rows : List Fields, (∀ row ∈ rows, row ∈ seen ∧ f.accepts row = true ∧ asked row = true) ∧
        let body := page (rows.map .obj) (seen.countP asked) q
        (p.list req).runOn env₁ = (p.finishList ctx₁ (q.filter.union f) body).runOn env₁' ∧
          (p.list req).runOn env₂ = (p.finishList ctx₂ (q.filter.union f) body).runOn env₂' ∧
          ((∀ hook ∈ p.hooks, hook.event ≠ .after .list) →
            (p.list req).runOn env₁ = (.ok (.ok body), env₁') ∧
              (p.list req).runOn env₂ = (.ok (.ok body), env₂')) := by
  intro q asked seen
  have hembed : q.embed = [] := ListQuery.embed_ofParams hinclude
  -- no list rule is asked about a record
  cases hcheck : Access.check p.entity .list ⟨p.entity.name, .list, req.user, none, none⟩ with
  | error denial =>
    have hdenied (env : Env) : (p.list req).runOn env = (.error denial.toApiError, env) := by
      rw [list, Action.runOn_bind, runOn_authorize, hcheck]
      rfl
    exact .inl ⟨_, hdenied env₁, hdenied env₂⟩
  | ok =>
    right
    have hrun₁ := h₁.runOn_list hconnection hcheck
    have hrun₂ := h₂.runOn_list hconnection hcheck
    dsimp only at hrun₁ hrun₂
    -- both pages are functions of the rows that are seen, and these are the same
    rw [search_searchOf_eq hembed, count_union_eq] at hrun₁ hrun₂
    rw [← hblind hsame] at hrun₂
    refine ⟨_, fun row hrow => ?_, hrun₁, hrun₂, fun hafter => ?_⟩
    · have hmem := (Sorting.insertionSort_perm _ _).mem_iff.1 (Store.mem_of_mem_window hrow)
      obtain ⟨hseen, hasked⟩ := List.mem_filter.1 hmem
      exact ⟨hseen, (List.mem_filter.1 hseen).2, hasked⟩
    · rw [hrun₁, hrun₂, finishList_of_no_hook hafter, finishList_of_no_hook hafter]
      exact ⟨rfl, rfl⟩

end Confined

/-! ### A list for one team -/

/-- Notes of teams, of which everyone gets to see those of the team "b" only. -/
def teamNotes : Pipeline where
  entity := Entity.placeholder "note"
  connection := InMemory.connect false 0
  hooks := [⟨"note", .before .list, fun ctx => do
    Action.note (.str "listed")
    pure { ctx with filter := OrdMap.ofList [("team", .literal (.str "b"))] }⟩]

def teamNote (id team : String) : Fields := Fields.ofList [("id", .str id), ("team", .str team)]

/-- Two notes of the team "b", among hidden ones. -/
def noteTables (hidden : List Fields) : Env :=
  { Env.empty with
    live := OrdMap.ofList [("note", [teamNote "1" "b"] ++ hidden ++ [teamNote "2" "b"])] }

/-- A client that asks for the notes of the team "a" gets those of "b", and whether there are notes of "a"
at all it cannot find out. -/
theorem list_confined_teams :
    let req := { Request.ofPath "GET" "/notes" with query := OrdMap.ofList [("filter[team]", "a")] }
    let body := page [.obj (teamNote "1" "b"), .obj (teamNote "2" "b")] 2 (ListQuery.ofParams req.query)
    let listed (hidden : List Fields) := ((teamNotes.list req).runOn (noteTables hidden)).1
    (∃ b, listed [] = .ok (.ok b) ∧ listed [teamNote "3" "a", teamNote "4" "c"] = .ok (.ok b)) ∧
      listed [] = .ok (.ok body) := by
  intro req body listed
  let f : Filter := OrdMap.ofList [("team", .literal (.str "b"))]
  let ctx : HookContext := { teamNotes.context .list req with filter := f }
  let noted (env : Env) : Env := { env with journal := [.str "listed"] }
  have hconfines (hidden : List Fields) :
      teamNotes.Confines req f (noteTables hidden) ctx (noted (noteTables hidden)) := ⟨rfl, rfl, rfl⟩
  have hlisted : listed [] = .ok (.ok body) := rfl
  refine ⟨?_, hlisted⟩
  rcases list_confined rfl rfl (hconfines []) (hconfines [teamNote "3" "a", teamNote "4" "c"]) id rfl with
    ⟨err, h, -⟩ | ⟨rows, -, -, -, hanswers⟩
  · rw [show listed [] = .error err from congrArg Prod.fst h] at hlisted
    cases hlisted
  · obtain ⟨h, h'⟩ := hanswers (by simp [teamNotes])
    exact ⟨_, congrArg Prod.fst h, congrArg Prod.fst h'⟩

end Pipeline

end EntityRest
