import EntityRest.Proofs.Driver.InMemory
import EntityRest.Proofs.Plugin.FieldOrigins
import EntityRest.Proofs.Store.Identity
import EntityRest.Proofs.Validation.Input

/-! # Values that a new record must have

A document may leave out a required value if its field has a default, which the driver then puts in: under
the name of the field. This is where a column keeps its value, but a belongsTo relation keeps its value under
its foreign key. So the key of a relation with a default is missing in the record if the document leaves it
out and nothing else fills it, and no other required key ever is (`contains_newRow_iff_not_forgets`). A
declared relation has no default of its own; a patch of an extension can give it one
(`default_of_resolved_relation`). -/

namespace EntityRest

namespace Entity

/-- A record needs a value under the key, where the field that is not optional keeps its value. -/
structure Requires (e : Entity) (name : String) (d : FieldDef) (key : String) : Prop where
  field : e.field? name = some d
  keeps : d.inputKey? name = some key
  required : d.optional = false
  foreign : e.ownerField ≠ some key

/-- The driver has a value for the key where the data have none. -/
inductive Supplies (e : Entity) (key : String) : Prop
  | id (h : key = "id") : Supplies e key
  | time (ht : e.timestamps = true) (h : key = "createdAt" ∨ key = "updatedAt") : Supplies e key
  | default {d : FieldDef} (hd : e.field? key = some d) (hv : d.default.isSome = true) : Supplies e key

/-- The key of a relation gets no value, although the relation has a default. -/
structure Forgets (e : Entity) (d : FieldDef) (key : String) (data : Fields) : Prop where
  relation : d.isRelation = true
  default : d.default.isSome = true
  absent : data.contains key = false
  unsupplied : ¬e.Supplies key

end Entity

section

variable {e : Entity} {name key : String} {d : FieldDef} {data : Fields} {body : Json}

theorem Store.contains_newRow (e : Entity) (stamp : Stamp) (data : Fields) (key : String) :
    (Store.newRow e stamp data).contains key = true ↔ data.contains key = true ∨ e.Supplies key := by
  have hsupplies : e.Supplies key ↔ (e.timestamps = true ∧ (key = "createdAt" ∨ key = "updatedAt")) ∨
      ((e.field? key).bind (·.default)).isSome = true ∨ key = "id" := by
    constructor
    · rintro (h | ⟨ht, h⟩ | @⟨d, hd, hv⟩)
      · exact .inr (.inr h)
      · exact .inl ⟨ht, h⟩
      · refine .inr (.inl ?_)
        rw [hd]
        exact hv
    · rintro (⟨ht, h⟩ | h | h)
      · exact .time ht h
      · obtain ⟨v, hv⟩ := Option.isSome_iff_exists.1 h
        obtain ⟨d, hd, hdefault⟩ := Option.bind_eq_some_iff.1 hv
        exact .default hd (by rw [hdefault]; rfl)
      · exact .id h
  rw [hsupplies, Fields.contains, Store.get?_newRow, Store.newValue?, Fields.contains]
  split
  · next h => simp [h]
  · next h =>
    by_cases hid : key = "id" <;> simp [h, hid]

theorem Entity.Requires.mem_clientFields (h : e.Requires name d key) :
    (key, d) ∈ Validation.clientFields e := by
  refine Validation.mem_clientFields.2 ⟨List.mem_filterMap.2 ⟨(name, d), ?_, ?_⟩, h.foreign⟩
  · exact OrdMap.get?_eq_some_iff.1 h.field
  · show (d.inputKey? name).map _ = _
    rw [h.keeps]
    rfl

/-- The record that is made of the data of a valid document has every required value that is not forgotten. -/
theorem contains_newRow_iff_not_forgets (hvalid : (Validation.input e .create body).toExcept = .ok data)
    (h : e.Requires name d key) (stamp : Stamp) :
    (Store.newRow e stamp data).contains key = true ↔ ¬e.Forgets d key data := by
  rw [Store.contains_newRow]
  constructor
  · rintro (hdata | hsupplies) hforgets
    · rw [hforgets.absent] at hdata; cases hdata
    · exact hforgets.unsupplied hsupplies
  · intro hkept
    by_contra hmissing
    rw [not_or] at hmissing
    have habsent : data.contains key = false := Bool.eq_false_iff.2 hmissing.1
    have hdefault : d.default.isSome = true := by
      have hmay := (Validation.contains_of_toExcept hvalid h.mem_clientFields).resolve_left hmissing.1
      simpa [Validation.mayOmit, h.required] using hmay
    refine hkept ⟨?_, hdefault, habsent, hmissing.2⟩
    -- the default of a column goes where its value is kept
    by_contra hcolumn
    have hnone : d.relation = none := by simpa [FieldDef.isRelation] using hcolumn
    obtain rfl : name = key := by simpa [FieldDef.inputKey?, hnone] using h.keeps
    exact hmissing.2 (.default h.field hdefault)

end

/-- A default of a resolved relation is that of a patch, or that of a relation that is declared or brought
along with it. -/
theorem default_of_resolved_relation {p : Plugin} {x : Extension} {e : Entity}
    (he : e ∈ (p.resolveWith x).1.entities) {name : String} {d : FieldDef} (hd : e.field? name = some d)
    (hrelation : d.isRelation = true) {v : Json} (hv : d.default = some v) :
    (∃ patch, x.HasPatch patch ∧ patch.default = some v) ∨
      ∃ source, SourceField p x source ∧ source.isRelation = true ∧ source.default = some v := by
  refine forall_fields_resolveWith (P := fun d => d.isRelation = true → d.default = some v →
    (∃ patch, x.HasPatch patch ∧ patch.default = some v) ∨
      ∃ source, SourceField p x source ∧ source.isRelation = true ∧ source.default = some v)
    (fun source hsource hrelation hv => .inr ⟨source, hsource, hrelation, hv⟩) ?_ he name d hd hrelation hv
  intro patch hpatch d hd hrelation hv
  change (patch.default <|> d.default) = some v at hv
  cases hdefault : patch.default with
  | some w => rw [hdefault] at hv; exact .inl ⟨patch, hpatch, hdefault.trans hv⟩
  | none => rw [hdefault] at hv; exact hd hrelation hv

open InMemory in
/-- What a create stores for the data of a valid document has a value under every required key, unless it
forgets the default of a relation; and that default comes from a patch or from a finished definition. -/
theorem Plugin.create_contains_iff {p : Plugin} {x : Extension} {e : Entity}
    (he : e ∈ (p.resolveWith x).1.entities) {body : Json} {data : Fields}
    (hvalid : (Validation.input e .create body).toExcept = .ok data) {enforceKeys : Bool} {scope : Nat}
    {env env' : Env} {stored : Json}
    (hcreate : ((connect enforceKeys scope).create e data).runOn env = (.ok stored, env')) :
    ∃ row : Fields, stored = .obj row ∧
      (scope ≤ env.copies.length →
        (env'.tables scope).rows e.name = (env.tables scope).rows e.name ++ [row]) ∧
      ∀ name d key, e.Requires name d key →
        (row.contains key = true ↔ ¬e.Forgets d key data) ∧
          (e.Forgets d key data → ∃ v, d.default = some v ∧
            ((∃ patch, x.HasPatch patch ∧ patch.default = some v) ∨
              ∃ source, SourceField p x source ∧ source.isRelation = true ∧ source.default = some v)) := by
  rw [create_connect, runOn_writing] at hcreate
  split at hcreate
  · next written s hwritten =>
    cases hcreate
    obtain ⟨⟨row, s'⟩, hrow, heq⟩ := exists_of_map_eq_ok hwritten
    cases heq
    obtain ⟨rfl, rfl, -⟩ := Store.create_ok hrow
    refine ⟨_, rfl, fun hopen => ?_, fun name d key hrequires => ⟨?_, fun hforgets => ?_⟩⟩
    · have hopen : scope ≤ ({ env with issued := env.issued + 1 } : Env).copies.length := hopen
      rw [Env.tables_setTables_of_le hopen, Store.rows_insert, if_pos rfl]
    · exact contains_newRow_iff_not_forgets hvalid hrequires _
    · obtain ⟨v, hv⟩ := Option.isSome_iff_exists.1 hforgets.default
      exact ⟨v, hv, default_of_resolved_relation he hrequires.field hforgets.relation hv⟩
  · cases hcreate

/-- The author of a post, which is not optional. -/
def authorRelation : FieldDef :=
  RelationSpec.define ⟨.belongsTo, .named "user", none, none, none, false⟩ "author" "post" "user"

def usualAuthorRelation : FieldDef := { authorRelation with default := some (.str "u1") }

/-- Posts with their authors. -/
def Plugin.authoredPosts : Plugin :=
  (Plugin.ofId "blog" "Blog" "1.0.0").addEntity "post"
    { fields := OrdMap.ofList [("title", FieldDef.ofType .string), ("author", authorRelation)]
      timestamps := false }

/-- An extension that names the usual author. -/
def Extension.usualAuthor : Extension :=
  ({} : Extension).patchField "post" "author" { default := some (.str "u1") }

/-- A post without an author is valid, and the usual author is stored where no author of a post is kept. -/
theorem Plugin.create_contains_iff_posts :
    ∃ e ∈ (Plugin.authoredPosts.resolveWith .usualAuthor).1.entities,
      e.Requires "title" (FieldDef.ofType .string) "title" ∧
        e.Requires "author" usualAuthorRelation "authorId" ∧
        (Validation.input e .create (.obj [("title", .str "one")])).toExcept = .ok [("title", .str "one")] ∧
        ∃ (row : Fields) (env : Env),
          ((InMemory.connect false 0).create e [("title", .str "one")]).runOn .empty = (.ok (.obj row), env) ∧
            (env.tables 0).rows e.name = [row] ∧ row.contains "title" = true ∧
              row.contains "authorId" = false ∧ row.get? "author" = some (.str "u1") := by
  obtain ⟨post, hposts, hpost⟩ : ∃ e, (Plugin.authoredPosts.resolveWith .usualAuthor).1.entities = [e] ∧
      e = ⟨"post", OrdMap.ofList [("title", FieldDef.ofType .string),
        ("author", usualAuthorRelation)], ∅, none, false,
          some ⟨"blog", some "/blog", none, false⟩⟩ := ⟨_, rfl, by rfl⟩
  have hmem : post ∈ (Plugin.authoredPosts.resolveWith .usualAuthor).1.entities := by
    rw [hposts]
    exact List.mem_singleton_self _
  have htitle : post.Requires "title" (FieldDef.ofType .string) "title" := by
    rw [hpost]
    exact ⟨rfl, rfl, rfl, nofun⟩
  have hauthor : post.Requires "author" usualAuthorRelation "authorId" := by
    rw [hpost]
    exact ⟨rfl, rfl, rfl, nofun⟩
  have hforgets : post.Forgets usualAuthorRelation "authorId"
      [("title", .str "one")] := by
    rw [hpost]
    refine ⟨rfl, rfl, rfl, ?_⟩
    rintro (h | ⟨⟨⟩⟩ | ⟨⟨⟩⟩)
    exact absurd h (by decide)
  have hvalid : (Validation.input post .create (.obj [("title", .str "one")])).toExcept =
      .ok [("title", .str "one")] := by
    rw [hpost]
    rfl
  obtain ⟨stored, env, hrun, hauthorIs⟩ : ∃ stored env,
      ((InMemory.connect false 0).create post [("title", .str "one")]).runOn .empty = (.ok stored, env) ∧
        ∀ row : Fields, stored = .obj row → row.get? "author" = some (.str "u1") := by
    rw [hpost]
    exact ⟨_, _, rfl, fun row h => by cases h; rfl⟩
  obtain ⟨row, rfl, hrows, hkeys⟩ := Plugin.create_contains_iff hmem hvalid hrun
  have hkept : row.contains "title" = true := (hkeys _ _ _ htitle).1.2 fun h => Bool.false_ne_true h.relation
  have hmissing : row.contains "authorId" = false :=
    Bool.eq_false_iff.2 fun h => (hkeys _ _ _ hauthor).1.1 h hforgets
  exact ⟨post, hmem, htitle, hauthor, hvalid, row, env, hrun, hrows (Nat.zero_le _), hkept, hmissing,
    hauthorIs row rfl⟩

end EntityRest
