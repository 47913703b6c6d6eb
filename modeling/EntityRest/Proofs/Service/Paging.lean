import EntityRest.Proofs.Access.Check
import EntityRest.Proofs.Query.Comparator
import EntityRest.Proofs.Query.Paging
import EntityRest.Proofs.Service.Pipeline

/-! # Pages partition the result of a list request

Without hooks and with rules that let the user pass, a list request on the in-memory driver answers with a
window of the sorted rows that match, and with the number of all of them (`runOn_list`). Where sorting can rely on
the comparison of these rows, the windows that page numbers or offsets ask for are the pages of the whole result
(`list_pages`). -/

namespace EntityRest

/-- The records and the total in the body of a page. -/
def Json.listing? (body : Json) : Option (List Json × Json) := do
  let data ← (body.field? "data").bind items?
  let total ← (body.field? "pagination").bind (·.field? "total")
  pure (data, total)

/-- Answers that are numbered from 0 on cut a list into pages of `l` records: each of them tells the number
of all records, the pages put together are the list, all but the last are full, and those after it are
empty as far as they can be `asked` for. -/
structure Partitions (whole : List Json) (l : Nat) (asked : Nat → Prop)
    (answer : Nat → Option (List Json × Json)) : Prop where
  total : ∀ i, ∃ data, answer i = some (data, .int whole.length)
  every_page : ∀ i, i < pageCount whole.length l → asked i
  concat : (List.range (pageCount whole.length l)).flatMap (fun i => (answer i).elim [] Prod.fst) = whole
  full : ∀ i, i + 1 < pageCount whole.length l → ((answer i).elim [] Prod.fst).length = l
  empty : ∀ i, asked i → pageCount whole.length l ≤ i → (answer i).elim [] Prod.fst = []

theorem Partitions.of_pageOf {whole : List Json} {l : Nat} {asked : Nat → Prop}
    {answer : Nat → Option (List Json × Json)} (hl : 1 ≤ l)
    (htotal : ∀ i, ∃ data, answer i = some (data, .int whole.length))
    (hanswer : ∀ i, asked i → answer i = some (pageOf l i whole, .int whole.length))
    (hasked : ∀ i, i < pageCount whole.length l → asked i) : Partitions whole l asked answer := by
  have hdata : ∀ i, asked i → (answer i).elim [] Prod.fst = pageOf l i whole := fun i hi => by
    rw [hanswer i hi]; rfl
  refine ⟨htotal, hasked, ?_, fun i hi => ?_, fun i hi hlast => ?_⟩
  · have hpages : ∀ i ∈ List.range (pageCount whole.length l),
        (answer i).elim [] Prod.fst = pageOf l i whole :=
      fun i hi => hdata i (hasked i (List.mem_range.1 hi))
    rw [List.flatMap_congr hpages, flatMap_pageOf hl]
  · rw [hdata i (hasked i (by omega)), length_pageOf hl hi]
  · rw [hdata i hi, pageOf_eq_nil hl hlast]

namespace Pipeline

variable {p : Pipeline} {enforceKeys : Bool} {scope : Nat} {req : Request} {env : Env}

theorem listing?_page (data : List Json) (total : Nat) (q : ListQuery) :
    (page data total q).listing? = some (data, .int total) := by
  simp [page, Json.listing?, Json.object, Json.field?, Json.fields?, Json.items?, Fields.ofList,
    Fields.union, Fields.get?_insert]

/-- The context in which list rules are checked. -/
abbrev listContext (e : Entity) (user : Option User) : RuleContext := ⟨e.name, .list, user, none, none⟩

theorem runOn_list (hconnection : p.connection = InMemory.connect enforceKeys scope) (hhooks : p.hooks = [])
    (hallows : Access.Allows p.entity .list (listContext p.entity req.user))
    (params : OrdMap String String) :
    let q := ListQuery.ofParams params
    let s := env.tables scope
    (p.list { req with query := params }).runOn env =
      (.ok (.ok (page ((s.search p.entity (searchOf q ∅)).map .obj) (s.count p.entity (some q.filter)) q)),
        env) := by
  intro q s
  have hpass : (p.authorize .list { req with query := params } none none).runOn env = (.ok (), env) := by
    rw [runOn_authorize, Access.check_eq_ok_iff.2 hallows]; rfl
  unfold list
  rw [Action.runOn_bind, hpass]
  simp only [hhooks, hconnection]
  rfl

/-- What a list request with given parameters is answered with, if the answer is a page. -/
def listed (p : Pipeline) (req : Request) (params : OrdMap String String) (env : Env) :
    Option (List Json × Json) :=
  match ((p.execute .list none { req with query := params }).runOn env).1 with
  | .ok r => if r.status = 200 then r.body.listing? else none
  | .error _ => none

theorem listed_eq (hconnection : p.connection = InMemory.connect enforceKeys scope) (hhooks : p.hooks = [])
    (hallows : Access.Allows p.entity .list (listContext p.entity req.user))
    (params : OrdMap String String) :
    let q := ListQuery.ofParams params
    let s := env.tables scope
    p.listed req params env =
      some ((s.search p.entity (searchOf q ∅)).map .obj, .int (s.count p.entity (some q.filter))) := by
  intro q s
  show (match ((p.list { req with query := params }).runOn env).1 with
    | .ok r => if r.status = 200 then r.body.listing? else none
    | .error _ => none) = _
  rw [runOn_list hconnection hhooks hallows]
  exact listing?_page _ _ _

/-! ### The pages of a result -/

/-- Everything that a query asks for, in its order and not cut into pages. -/
def unpaged (q : ListQuery) : Search := ⟨q.filter, q.sort, none, none, q.embed⟩

section Whole

variable {s : Store} {e : Entity} {q : ListQuery} {l i : Nat}

theorem search_unpaged : s.search e (unpaged q) = (s.matching e q.filter q.sort).map (s.embed e q.embed) :=
  rfl

theorem length_search_unpaged : (s.search e (unpaged q)).length = s.count e (some q.filter) := by
  rw [search_unpaged, List.length_map]
  exact (Sorting.insertionSort_perm _ _).length_eq

theorem length_search_unpaged_le : (s.search e (unpaged q)).length ≤ (s.rows e.name).length := by
  rw [length_search_unpaged]
  exact List.length_filter_le _ _

/-- A query with a limit asks for a piece of the whole, also where its offset has been cut to the greatest
one that there is: so many rows are not there to be skipped. -/
theorem search_searchOf (hrows : (s.rows e.name).length < Text.int64Bound) :
    s.search e (searchOf { q with take := l, skip := min (i * l) ListQuery.maxSkip } ∅) =
      pageOf l i (s.search e (unpaged q)) := by
  have hlength : (s.matching e q.filter q.sort).length < Text.int64Bound := by
    have hle := length_search_unpaged_le (s := s) (e := e) (q := q)
    rw [search_unpaged, List.length_map] at hle
    omega
  have hdrop : (s.matching e q.filter q.sort).drop (min (i * l) ListQuery.maxSkip) =
      (s.matching e q.filter q.sort).drop (i * l) := by
    have hmax : Text.int64Bound ≤ ListQuery.maxSkip := by decide
    rcases Nat.le_total (i * l) ListQuery.maxSkip with h | h
    · rw [Nat.min_eq_left h]
    · rw [List.drop_of_length_le (by omega), List.drop_of_length_le (by omega)]
  show (((s.matching e q.filter q.sort).drop (min (i * l) ListQuery.maxSkip)).take l).map
    (s.embed e q.embed) = _
  rw [hdrop, pageOf, search_unpaged, List.map_take, List.map_drop]

end Whole

section Pages

variable (hconnection : p.connection = InMemory.connect enforceKeys scope) (hhooks : p.hooks = [])
  (hallows : Access.Allows p.entity .list (listContext p.entity req.user))
  (hrows : ((env.tables scope).rows p.entity.name).length < Text.int64Bound)
include hconnection hhooks hallows

theorem listed_total {params : OrdMap String String} {q : ListQuery}
    (hq : (ListQuery.ofParams params).filter = q.filter) :
    ∃ data, p.listed req params env =
      some (data, .int (((env.tables scope).search p.entity (unpaged q)).map Json.obj).length) := by
  rw [listed_eq hconnection hhooks hallows, List.length_map, length_search_unpaged, hq]
  exact ⟨_, rfl⟩

include hrows

theorem listed_piece {params : OrdMap String String} {q : ListQuery} {l i : Nat}
    (hq : ListQuery.ofParams params = { q with take := l, skip := min (i * l) ListQuery.maxSkip }) :
    let whole := ((env.tables scope).search p.entity (unpaged q)).map Json.obj
    p.listed req params env = some (pageOf l i whole, .int whole.length) := by
  intro whole
  have hpiece : (pageOf l i ((env.tables scope).search p.entity (unpaged q))).map Json.obj =
      pageOf l i whole := by
    rw [pageOf, pageOf, List.map_take, List.map_drop]
  have hcount : (env.tables scope).count p.entity (some q.filter) = whole.length := by
    rw [List.length_map, length_search_unpaged]
  rw [listed_eq hconnection hhooks hallows, hq, search_searchOf hrows, hpiece, hcount]

/-- For every limit from 1 to 100, the pages that a client asks for by number, and those it asks for by
offset, partition the result: the rows that match, each once and sorted, if the comparison that sorts them is legal
on them. Numbers of more than 64 bits do not count as asked for, since they are not read. -/
theorem list_pages {l : Nat} (hl : 1 ≤ l) (hmax : l ≤ 100) (hpage : req.query.get? "page" = none) :
    let q := ListQuery.ofParams req.query
    let s := env.tables scope
    let found := (s.rows p.entity.name).filter q.filter.accepts
    let whole := (s.search p.entity (unpaged q)).map Json.obj
    q.sort.Legal found →
      (∃ rows, q.sort.Sorts found rows ∧ whole = rows.map fun row => .obj (s.embed p.entity q.embed row)) ∧
      Partitions whole l (fun i => i + 1 < Text.int64Bound) (fun i =>
        p.listed req (ListQuery.withPage (ListQuery.withLimit req.query l) (i + 1)) env) ∧
      Partitions whole l (fun i => i * l < Text.int64Bound) (fun i =>
        p.listed req (ListQuery.withOffset (ListQuery.withLimit req.query l) (i * l)) env) := by
  intro q s found whole hlegal
  have hlength : whole.length < Text.int64Bound := by
    have hle := length_search_unpaged_le (s := s) (e := p.entity) (q := q)
    have hwhole : whole.length = (s.search p.entity (unpaged q)).length := List.length_map _
    exact hwhole ▸ Nat.lt_of_le_of_lt hle hrows
  have hbefore : ∀ i, i < pageCount whole.length l → i * l < Text.int64Bound := fun i hi => by
    have := (lt_pageCount_iff hl).1 hi
    omega
  have hlimit : ListQuery.filterOf (ListQuery.withLimit req.query l) = q.filter :=
    ListQuery.filterOf_insert (by decide)
  have hfilter : ∀ {k}, (ListQuery.ofParams
      (ListQuery.withPage (ListQuery.withLimit req.query l) k)).filter = q.filter :=
    (ListQuery.filterOf_insert (by decide)).trans hlimit
  have hfilter' : ∀ {o}, (ListQuery.ofParams
      (ListQuery.withOffset (ListQuery.withLimit req.query l) o)).filter = q.filter :=
    (ListQuery.filterOf_insert (by decide)).trans hlimit
  refine ⟨⟨q.sort.sortRecords found, Sorting.sorts_sortRecords hlegal, List.map_map⟩, ?_, ?_⟩
  · refine .of_pageOf hl (fun i => listed_total hconnection hhooks hallows hfilter) (fun i hi => ?_)
      fun i hi => ?_
    · exact listed_piece hconnection hhooks hallows hrows (ListQuery.ofParams_page hl hmax hi)
    · have := (lt_pageCount_iff hl).1 hi
      have : i ≤ i * l := Nat.le_mul_of_pos_right i hl
      omega
  · refine .of_pageOf hl (fun i => listed_total hconnection hhooks hallows hfilter') (fun i hi => ?_) hbefore
    refine listed_piece hconnection hhooks hallows hrows ?_
    have hcut : Text.int64Bound ≤ ListQuery.maxSkip := by decide
    rw [ListQuery.ofParams_offset hl hmax hi hpage, Nat.min_eq_left (by omega)]

end Pages

/-! ### Three notes, two on a page -/

def notes : Pipeline := ⟨Entity.placeholder "note", InMemory.connect false 0, []⟩

def threeNotes : Env :=
  { Env.empty with
    live := OrdMap.ofList [("note", [[("id", .str "1")], [("id", .str "2")], [("id", .str "3")]])] }

def listNotes : Request := Request.ofPath "GET" "/notes"

/-- Asks for the notes in the reverse order. -/
def notesBackwards : Request := { listNotes with query := OrdMap.ofList [("sort", "-id")] }

/-- The last note comes first, and the first one stands alone on the second page. -/
theorem list_pages_threeNotes :
    ((List.range 2).flatMap fun i =>
      (notes.listed notesBackwards (ListQuery.withPage (ListQuery.withLimit notesBackwards.query 2) (i + 1))
        threeNotes).elim [] Prod.fst) =
      [.obj [("id", .str "3")], .obj [("id", .str "2")], .obj [("id", .str "1")]] := by
  have hconnection : notes.connection = InMemory.connect false 0 := rfl
  have hallows : Access.Allows notes.entity .list (listContext notes.entity notesBackwards.user) :=
    fun rules hrules => by cases hrules
  have hrows : ((threeNotes.tables 0).rows notes.entity.name).length < Text.int64Bound := by decide
  have hlegal : (ListQuery.ofParams notesBackwards.query).sort.Legal (((threeNotes.tables 0).rows
      notes.entity.name).filter (ListQuery.ofParams notesBackwards.query).filter.accepts) := by
    refine Sorting.legal_of_comparable fun f hf => ⟨.string, ?_⟩
    rw [List.mem_singleton.1 hf]
    exact List.forall_mem_cons.2 ⟨.string _, List.forall_mem_cons.2 ⟨.string _,
      List.forall_mem_singleton.2 (.string _)⟩⟩
  have hwhole : ((threeNotes.tables 0).search notes.entity
      (unpaged (ListQuery.ofParams notesBackwards.query))).map Json.obj =
        [.obj [("id", .str "3")], .obj [("id", .str "2")], .obj [("id", .str "1")]] := rfl
  have hpages := (list_pages hconnection rfl hallows hrows (by decide : 1 ≤ 2) (by decide) rfl hlegal).2.1
  rw [hwhole] at hpages
  exact hpages.concat

/-- A page far behind the last one has a number that is not read, and the answer is the first page. -/
theorem first_page_beyond_last :
    pageCount 3 2 < Text.int64Bound ∧
      notes.listed listNotes (ListQuery.withPage (ListQuery.withLimit ∅ 2) Text.int64Bound) threeNotes =
        some ([.obj [("id", .str "1")], .obj [("id", .str "2")]], .int 3) :=
  ⟨by decide, rfl⟩

end Pipeline

end EntityRest
