import EntityRest.Proofs.Query.Equality
import EntityRest.Store.Basic

/-! # Embedded relations

Under the name of an included relation stand the rows of the target that hold the key of the record, all of them or
the first one (`get?_embed`, `related_eq`). Two missing keys are no link: rows are meant to be embedded where both sides
hold a key that is not null (`Relation.relates`). Exactly that is embedded unless null meets null, which `looseEq` takes
for equality; then the rows that hold null are embedded instead (`get?_embed_iff`). -/

namespace EntityRest

/-! ### Rows that are linked to a record -/

/-- The column of its target that a relation looks into, and the key that it looks for. -/
def Relation.link (r : Relation) (record : Fields) : String × Option Json :=
  match r.kind with
  | .belongsTo => (r.references, record.get? r.foreignKey)
  | _ => (r.foreignKey, some (record.getOrNull r.references))

/-- The value that a list of linked rows is embedded as. -/
def Relation.embedded (r : Relation) (rows : List Fields) : Json :=
  if r.kind = .hasMany then .arr (rows.map .obj) else rows.head?.elim .null .obj

namespace Store

variable {s : Store} {e : Entity} {r : Relation} {record : Fields}

/-- The rows of the target of a relation that hold the key of a record. -/
def answering (s : Store) (r : Relation) (record : Fields) : List Fields :=
  (s.rows r.target).filter fun row => (r.link record).2.elim false (holdsKey (r.link record).1 · row)

theorem related_eq (s : Store) (r : Relation) (record : Fields) :
    s.related r record = r.embedded (s.answering r record) := by
  unfold related Relation.embedded answering Relation.link
  cases hkind : r.kind with
  | belongsTo =>
    dsimp only
    cases record.get? r.foreignKey with
    | none =>
      have hnone : (s.rows r.target).filter (fun _ => false) = [] := List.filter_eq_nil_iff.2 (by simp)
      simp [hnone]
    | some key => simp [List.head?_filter]
  | hasMany => simp
  | hasOne => simp [List.head?_filter]

/-- The relation that a name stands for, if it is asked for. -/
def included? (e : Entity) (names : List String) (k : String) : Option Relation :=
  if k ∈ names then (e.field? k).bind (·.relation) else none

theorem included?_cons (e : Entity) (name : String) (names : List String) (k : String) :
    included? e (name :: names) k = (included? e names k).or (included? e [name] k) := by
  unfold included?
  by_cases hk : k ∈ names
  · rw [if_pos hk, if_pos (List.mem_cons_of_mem _ hk)]
    cases (e.field? k).bind (·.relation) with
    | none => rw [Option.none_or, ite_self]
    | some r => rfl
  · rw [if_neg hk, Option.none_or]
    simp [hk]

/-- Puts the value of one relation into a record, if the name is that of a relation. -/
def embedOne (s : Store) (e : Entity) (record out : Fields) (name : String) : Fields :=
  match (e.field? name).bind (·.relation) with
  | none => out
  | some r => out.insert name (s.related r record)

theorem get?_embedOne (s : Store) (e : Entity) (record out : Fields) (name k : String) :
    (s.embedOne e record out name).get? k = ((included? e [name] k).map (s.related · record)).or (out.get? k) := by
  unfold embedOne included?
  by_cases hk : k = name
  · subst hk
    rw [if_pos (List.mem_singleton_self k)]
    cases (e.field? k).bind (·.relation) with
    | none => rfl
    | some r => dsimp only; rw [Fields.get?_insert, if_pos rfl]; rfl
  · rw [if_neg (mt List.mem_singleton.1 hk)]
    cases (e.field? name).bind (·.relation) with
    | none => rfl
    | some r => dsimp only; rw [Fields.get?_insert, if_neg hk]; rfl

/-- Every included relation is looked up for the record as it is stored; all other fields stay. -/
theorem get?_embed (s : Store) (e : Entity) (names : List String) (record : Fields) (k : String) :
    (s.embed e names record).get? k = ((included? e names k).map (s.related · record)).or (record.get? k) := by
  have hfold : ∀ out : Fields, (names.foldl (s.embedOne e record) out).get? k =
      ((included? e names k).map (s.related · record)).or (out.get? k) := by
    induction names with
    | nil => exact fun _ => rfl
    | cons name names ih =>
      intro out
      rw [List.foldl_cons, ih, get?_embedOne, included?_cons e name names, Option.map_or, Option.or_assoc]
  exact hfold record

end Store

/-! ### Keys that are null -/

/-- The column of a record that a relation starts from, and the column of its target. -/
def Relation.columns (r : Relation) : String × String :=
  match r.kind with
  | .belongsTo => (r.foreignKey, r.references)
  | _ => (r.references, r.foreignKey)

/-- Both hold a key that is not null, and the keys are equal. -/
def Relation.relates (r : Relation) (record row : Fields) : Bool :=
  match record.get? r.columns.1, row.get? r.columns.2 with
  | some key, some v => !key.isNull && !v.isNull && v.looseEq key
  | _, _ => false

/-- The row holds null, and null is what the relation looks for: the record holds it, or has no such column though the
key is kept by the rows of the target. -/
def Relation.nullsMeet (r : Relation) (record row : Fields) : Bool :=
  (r.link record).2.elim false Json.isNull && (row.get? (r.link record).1).elim false Json.isNull

theorem Json.looseEq_eq_or (v key : Json) :
    v.looseEq key = (!key.isNull && !v.isNull && v.looseEq key || key.isNull && v.isNull) := by
  cases hkey : key.isNull <;> cases hv : v.isNull
  · simp
  · simp [Json.isNull_eq_true_iff.1 hv, Json.looseEq_null hkey]
  · simp [Json.isNull_eq_true_iff.1 hkey, Json.looseEq_null_right hv]
  · simp [Json.isNull_eq_true_iff.1 hkey, Json.isNull_eq_true_iff.1 hv, Json.looseEq, Json.same]

theorem Relation.embedded_cons_ne (r : Relation) (row : Fields) (rows : List Fields) :
    r.embedded (row :: rows) ≠ r.embedded [] := by
  unfold embedded
  split <;> simp

namespace Store

variable {s : Store} {e : Entity} {r : Relation} {record row : Fields}

theorem link_elim_eq (r : Relation) (record row : Fields) :
    (r.link record).2.elim false (holdsKey (r.link record).1 · row) =
      (r.relates record row || r.nullsMeet record row) := by
  unfold Relation.relates Relation.nullsMeet Relation.link Relation.columns holdsKey
  cases r.kind with
  | belongsTo =>
    dsimp only
    cases record.get? r.foreignKey with
    | none => simp
    | some key =>
      cases row.get? r.references with
      | none => simp
      | some v => exact v.looseEq_eq_or key
  | _ =>
    dsimp only
    unfold Fields.getOrNull
    cases record.get? r.references with
    | none =>
      cases row.get? r.foreignKey with
      | none => simp
      | some v => simpa [Json.isNull] using v.looseEq_eq_or .null
    | some key =>
      cases row.get? r.foreignKey with
      | none => simp
      | some v => exact v.looseEq_eq_or key

theorem answering_eq (s : Store) (r : Relation) (record : Fields) :
    s.answering r record = (s.rows r.target).filter fun row => r.relates record row || r.nullsMeet record row :=
  List.filter_congr fun row _ => link_elim_eq r record row

theorem get?_embed_of_included {names : List String} {name : String} (h : included? e names name = some r) :
    (s.embed e names record).get? name = some (r.embedded (s.answering r record)) := by
  rw [get?_embed, h, ← related_eq]
  rfl

/-- Unless null meets null, an included relation is made of the rows that relate to the record. -/
theorem get?_embed_of_no_nulls {names : List String} {name : String} (h : included? e names name = some r)
    (hno : ∀ row ∈ s.rows r.target, r.nullsMeet record row = false) :
    (s.embed e names record).get? name = some (r.embedded ((s.rows r.target).filter (r.relates record))) := by
  rw [get?_embed_of_included h, answering_eq]
  congr 2
  exact List.filter_congr fun row hrow => by rw [hno row hrow, Bool.or_false]

/-- A record whose key is null relates to nothing. -/
theorem relates_eq_false (h : r.nullsMeet record row = true) (other : Fields) : r.relates record other = false := by
  unfold Relation.nullsMeet Relation.link at h
  unfold Relation.relates Relation.columns
  cases hkind : r.kind with
  | belongsTo =>
    simp only [hkind] at h ⊢
    cases hkey : record.get? r.foreignKey with
    | none => rfl
    | some key =>
      simp only [hkey, Option.elim_some, Bool.and_eq_true] at h
      cases other.get? r.references <;> simp [h.1]
  | _ =>
    simp only [hkind, Fields.getOrNull] at h ⊢
    cases hkey : record.get? r.references with
    | none => rfl
    | some key =>
      simp only [hkey, Option.elim_some, Option.getD_some, Bool.and_eq_true] at h
      cases other.get? r.foreignKey <;> simp [h.1]

/-- The value of an included relation is made of exactly the rows that relate to the record unless null meets null in
some row; then it is made of the rows in which that is so. -/
theorem get?_embed_iff {names : List String} {name : String} (h : included? e names name = some r) (s : Store)
    (record : Fields) :
    let rows := s.rows r.target
    ((s.embed e names record).get? name = some (r.embedded (rows.filter (r.relates record))) ↔
      ∀ row ∈ rows, r.nullsMeet record row = false) ∧
    ((∃ row ∈ rows, r.nullsMeet record row = true) →
      (s.embed e names record).get? name = some (r.embedded (rows.filter (r.nullsMeet record)))) := by
  intro rows
  have hvalue : (s.embed e names record).get? name = some (r.embedded (s.answering r record)) :=
    get?_embed_of_included h
  have hnull : (∃ row ∈ rows, r.nullsMeet record row = true) →
      s.answering r record = rows.filter (r.nullsMeet record) := by
    rintro ⟨row, -, hrow⟩
    rw [answering_eq]
    exact List.filter_congr fun other _ => by rw [relates_eq_false hrow other, Bool.false_or]
  refine ⟨⟨fun heq row hrow => Bool.eq_false_iff.2 fun hmeet => ?_, get?_embed_of_no_nulls h⟩,
    fun hsome => by rw [hvalue, hnull hsome]⟩
  have hnone : rows.filter (r.relates record) = [] :=
    List.filter_eq_nil_iff.2 fun other _ => by simp [relates_eq_false hmeet other]
  have hmem : row ∈ rows.filter (r.nullsMeet record) := List.mem_filter.2 ⟨hrow, hmeet⟩
  rw [hvalue, hnull ⟨row, hrow, hmeet⟩, hnone, Option.some.injEq] at heq
  cases hmeeting : rows.filter (r.nullsMeet record) with
  | nil => rw [hmeeting] at hmem; cases hmem
  | cons other others => rw [hmeeting] at heq; exact r.embedded_cons_ne other others heq

/-! ### A guest without a room -/

/-- The parcels of a guest, by the number of the room. -/
def parcels : Relation := ⟨.hasMany, "parcel", "room", "room", none⟩

def guest : Entity :=
  { Entity.placeholder "guest" with
    fields := OrdMap.ofList [("parcels", { FieldDef.ofType .string with relation := some parcels })] }

def unaddressed : Fields := [("id", .str "p1"), ("room", .null)]

def parcelToSeven : Fields := [("id", .str "p2"), ("room", .int 7)]

def frontDesk : Store := OrdMap.ofList [("parcel", [unaddressed, parcelToSeven])]

/-- The guest in room 7 is shown the parcel to that room, and the guest without a room the one without an address,
which does not relate to anybody. -/
theorem get?_embed_iff_parcels :
    let inSeven : Fields := [("id", .str "g1"), ("room", .int 7)]
    let roomless : Fields := [("id", .str "g2")]
    (frontDesk.embed guest ["parcels"] inSeven).get? "parcels" = some (.arr [.obj parcelToSeven]) ∧
      (frontDesk.embed guest ["parcels"] roomless).get? "parcels" = some (.arr [.obj unaddressed]) ∧
      (frontDesk.embed guest ["parcels"] roomless).get? "parcels" ≠
        some (parcels.embedded ((frontDesk.rows "parcel").filter (parcels.relates roomless))) := by
  intro inSeven roomless
  have hparcels : included? guest ["parcels"] "parcels" = some parcels := rfl
  obtain ⟨hseven, -⟩ := get?_embed_iff hparcels frontDesk inSeven
  obtain ⟨hroomless, hnulls⟩ := get?_embed_iff hparcels frontDesk roomless
  have hmem : unaddressed ∈ frontDesk.rows parcels.target := .head _
  refine ⟨hseven.2 ?_, hnulls ⟨unaddressed, hmem, rfl⟩, fun h => ?_⟩
  · exact List.forall_mem_cons.2 ⟨rfl, List.forall_mem_singleton.2 rfl⟩
  · exact absurd (hroomless.1 h unaddressed hmem) (by decide)

end Store

end EntityRest
