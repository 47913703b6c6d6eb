import EntityRest.Proofs.Driver.Writes
import EntityRest.Proofs.Store.References

/-! # References along a run of writes

`History` is a run of calls together with all that the tables have held. Along a run that enforces keys,
every key of a stored row is answered, or its answer was withdrawn and no row has answered since
(`history_answered_or_withdrawn`). The keys of a row are answered when the call that writes it begins, so
the row was there when the answer went, or it is an update of the very row that answered. -/

namespace EntityRest

namespace Store

/-- At some point of a history, which starts with the latest tables, the answer to a key was withdrawn. The
row has been stored since then, the key has not been answered again, and the row was stored before as well
unless it is what the answer was overwritten by. -/
def Withdrawn (history : List Store) (table : String) (row : Fields) (r : Relation) (key : Json) : Prop :=
  ∃ later s' s earlier successor, history = later ++ s' :: s :: earlier ∧ Withdraws r key s s' successor ∧
    (row ∈ s.rows table ∨ table = r.target ∧ successor = some row) ∧
    ∀ t ∈ later ++ [s'], row ∈ t.rows table ∧ ¬t.Answered r key

namespace Withdrawn

variable {history : List Store} {table : String} {row : Fields} {r : Relation} {key : Json} {s s' : Store}

theorem now {successor : Option Fields} (h : Withdraws r key s s' successor)
    (hbefore : row ∈ s.rows table ∨ table = r.target ∧ successor = some row)
    (hrow : row ∈ s'.rows table) (hno : ¬s'.Answered r key) (earlier : List Store) :
    Withdrawn (s' :: s :: earlier) table row r key := by
  refine ⟨[], s', s, earlier, successor, rfl, h, hbefore, fun t ht => ?_⟩
  rw [List.mem_singleton.1 ht]
  exact ⟨hrow, hno⟩

theorem cons (h : Withdrawn history table row r key) (hrow : row ∈ s.rows table)
    (hno : ¬s.Answered r key) : Withdrawn (s :: history) table row r key := by
  obtain ⟨later, s₁, s₀, earlier, successor, rfl, hwithdraws, hbefore, hsince⟩ := h
  refine ⟨s :: later, s₁, s₀, earlier, successor, rfl, hwithdraws, hbefore, fun t ht => ?_⟩
  rcases List.mem_cons.1 ht with rfl | ht
  · exact ⟨hrow, hno⟩
  · exact hsince t ht

end Withdrawn

end Store

namespace InMemory

variable {schema : String → Entity} {scope : Nat} {env : Env} {past : List Store}

/-- The environments that calls on the tables of a scope lead to, if these are empty at first and each of
them is used with the entity that `schema` names, with what the tables held before each call, the latest
first. Between the calls anything may happen elsewhere. -/
inductive History (schema : String → Entity) (enforceKeys : Bool) (scope : Nat) :
    List Store → Env → Prop
  | start {env : Env} (h : env.tables scope = ∅) : History schema enforceKeys scope [] env
  | call {past : List Store} {env : Env} (h : History schema enforceKeys scope past env) (w : Write)
      (hw : w.entity = schema w.entity.name) :
      History schema enforceKeys scope (env.tables scope :: past)
        ((w.act (connect enforceKeys scope)).runOn env).2
  | elsewhere {past : List Store} {env env' : Env} (h : History schema enforceKeys scope past env)
      (heq : env'.tables scope = env.tables scope) : History schema enforceKeys scope past env'

/-- One call: a key that is not answered after it had lost its answer before it, or loses it now. -/
theorem answered_or_withdrawn_of_stepped {s s' : Store} {α : Type} {result : Except DriverError α}
    (hstep : Stepped schema true s result s')
    (ih : ∀ table row r key, row ∈ s.rows table → Store.Refers (schema table) row r key →
      s.Answered r key ∨ Store.Withdrawn (s :: past) table row r key)
    {table : String} {row : Fields} (hrow : row ∈ s'.rows table) {r : Relation} {key : Json}
    (hrefers : Store.Refers (schema table) row r key) :
    s'.Answered r key ∨ Store.Withdrawn (s' :: s :: past) table row r key := by
  by_cases hanswer : s'.Answered r key
  · exact .inl hanswer
  right
  rcases hstep with rfl | ⟨-, hstep⟩
  · rcases ih table row r key hrow hrefers with hs | hs
    · exact absurd hs hanswer
    · exact hs.cons hrow hanswer
  · have hbefore : s.Answered r key ∨ Store.Withdrawn (s :: past) table row r key := by
      rcases hstep.mem_rows hrow with hold | hnew
      · exact ih table row r key hold hrefers
      · exact .inl (hnew r key hrefers)
    rcases hbefore with hs | hs
    · obtain ⟨successor, hwithdraws, hstored⟩ := hstep.withdraws hs hanswer
      exact .now hwithdraws (hstored table row hrow) hrow hanswer past
    · exact hs.cons hrow hanswer

/-- Whatever calls are made, successful or not, and whatever the relations say about deletes: a key that is
stored and not null is answered by a row of its target, or a call deleted the last row that answered to it
or overwrote that row by one that does not. -/
theorem history_answered_or_withdrawn (h : History schema true scope past env) {table : String}
    {row : Fields} (hrow : row ∈ (env.tables scope).rows table) {r : Relation} {key : Json}
    (hrefers : Store.Refers (schema table) row r key) :
    (env.tables scope).Answered r key ∨
      Store.Withdrawn (env.tables scope :: past) table row r key := by
  induction h generalizing table row r key with
  | start h => rw [h] at hrow; cases hrow
  | call _ w hw ih =>
    exact answered_or_withdrawn_of_stepped (wp_act w hw)
      (fun _ _ _ _ hrow hrefers => ih hrow hrefers) hrow hrefers
  | elsewhere _ heq ih =>
    rw [heq] at hrow ⊢
    exact ih hrow hrefers

/-! ### Books whose writer is gone -/

def writer : Entity := { Entity.placeholder "writer" with timestamps := false }

def writerOfBook : Relation := ⟨.belongsTo, "writer", "writerId", "id", none⟩

def book : Entity :=
  { Entity.placeholder "book" with
    fields := OrdMap.ofList [("writer", { FieldDef.ofType .string with relation := some writerOfBook })]
    timestamps := false }

def libraryEntity (table : String) : Entity := if table = "book" then book else writer

/-- Two writers with a book each, then the first writer is deleted. -/
def libraryCalls : List Write :=
  [.create writer (.ofList [("id", .str "w1")]), .create writer (.ofList [("id", .str "w2")]),
    .create book (.ofList [("id", .str "b1"), ("writerId", .str "w1")]),
    .create book (.ofList [("id", .str "b2"), ("writerId", .str "w2")]),
    .delete writer (Filter.ofId "w1")]

def runCalls (calls : List Write) : Env :=
  calls.foldl (fun env w => ((w.act (connect true 0)).runOn env).2) Env.empty

theorem history_library : ∃ past, History libraryEntity true 0 past (runCalls libraryCalls) := by
  have h₁ : History libraryEntity true 0 [] Env.empty := .start rfl
  have h₂ := h₁.call (.create writer (.ofList [("id", .str "w1")])) rfl
  have h₃ := h₂.call (.create writer (.ofList [("id", .str "w2")])) rfl
  have h₄ := h₃.call (.create book (.ofList [("id", .str "b1"), ("writerId", .str "w1")])) rfl
  have h₅ := h₄.call (.create book (.ofList [("id", .str "b2"), ("writerId", .str "w2")])) rfl
  exact ⟨_, h₅.call (.delete writer (Filter.ofId "w1")) rfl⟩

theorem refers_book {row : Fields} {key : String} (h : row.get? "writerId" = some (.str key)) :
    Store.Refers (libraryEntity "book") row writerOfBook (.str key) :=
  ⟨⟨"writer", _, rfl, rfl⟩, rfl, h, rfl⟩

theorem not_answered_first_writer :
    ¬(runCalls libraryCalls).live.Answered writerOfBook (.str "w1") := by
  rintro ⟨row, hrow, hholds⟩
  have hnone : ((runCalls libraryCalls).live.rows writerOfBook.target).any
      (Store.holdsKey writerOfBook.references (.str "w1")) = false := by decide
  exact List.any_eq_false.1 hnone row hrow hholds

/-- The first book keeps the key of its writer, who is deleted without a look at the books. -/
theorem dangling_after_delete :
    ∃ past env, History libraryEntity true 0 past env ∧ ∃ row ∈ env.live.rows "book",
      Store.Refers (libraryEntity "book") row writerOfBook (.str "w1") ∧
        ¬env.live.Answered writerOfBook (.str "w1") := by
  obtain ⟨past, h⟩ := history_library
  exact ⟨past, _, h, [("id", .str "b1"), ("writerId", .str "w1")], .head _, refers_book rfl,
    not_answered_first_writer⟩

theorem history_answered_or_withdrawn_library :
    ∃ past, History libraryEntity true 0 past (runCalls libraryCalls) ∧
      Store.Withdrawn ((runCalls libraryCalls).live :: past) "book"
        [("id", .str "b1"), ("writerId", .str "w1")] writerOfBook (.str "w1") := by
  obtain ⟨past, h⟩ := history_library
  refine ⟨past, h, ?_⟩
  have hrow : [("id", .str "b1"), ("writerId", .str "w1")] ∈ (runCalls libraryCalls).live.rows "book" :=
    .head _
  rcases history_answered_or_withdrawn h hrow (refers_book rfl) with ha | hw
  · exact absurd ha not_answered_first_writer
  · exact hw

end InMemory

end EntityRest
