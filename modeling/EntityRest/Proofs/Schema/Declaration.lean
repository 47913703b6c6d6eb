import EntityRest.Proofs.Data.Entries
import EntityRest.Schema.Entity

/-! # Declarations of entities, call by call

A declaration keeps explicit rules and the rules that come with an owner apart, and puts them together when the
entity is built. So it does not matter in which order they were given: for each operation the last call that
names it counts, and where none does, the owner's rule. What holds after some calls is `After`, which each call
keeps (`After.apply`); what is built from it has the declared fields, whatever was called
(`EntityDecl.build_after`). -/

namespace EntityRest

namespace EntityDecl

/-! ### Calls -/

/-- What can be set in a declaration. -/
inductive Call where
  | rules (rules : RuleSet)
  | rule (op : Operation) (rules : List Rule)
  | ownedBy (field : String)
  | timestamps (enabled : Bool)

namespace Call

def apply (d : EntityDecl) : Call → Except EntityError EntityDecl
  | rules rs => .ok (d.withRules rs)
  | rule op rs => .ok (d.withRule op rs)
  | ownedBy field => d.ownedBy field
  | timestamps enabled => .ok (d.withTimestamps enabled)

/-- The rules that a call sets for an operation. -/
def rulesFor? (op : Operation) : Call → Option (List Rule)
  | rules rs => rs.get? op
  | rule op' rs => if op = op' then some rs else none
  | _ => none

/-- The field that a call makes the owner. -/
def owner? : Call → Option String
  | ownedBy field => some field
  | _ => none

def timestamps? : Call → Option Bool
  | timestamps enabled => some enabled
  | _ => none

/-- What the last call that says something of a kind says. -/
def last? {α : Type} (said? : Call → Option α) (calls : List Call) : Option α := calls.reverse.findSome? said?

theorem last?_append_singleton {α : Type} (said? : Call → Option α) (calls : List Call) (c : Call) :
    last? said? (calls ++ [c]) = (said? c).or (last? said? calls) := by
  rw [last?, List.reverse_append, List.reverse_singleton, List.singleton_append, List.findSome?_cons]
  cases said? c <;> rfl

theorem mem_of_last?_owner? {calls : List Call} {field : String} (h : last? owner? calls = some field) :
    ownedBy field ∈ calls := by
  obtain ⟨c, hc, howner⟩ := List.exists_of_findSome?_eq_some h
  cases c with
  | ownedBy field' => cases howner; exact List.mem_reverse.1 hc
  | _ => cases howner

end Call

/-- A declaration after calls, of which the first one that fails ends the work. -/
def after (d : EntityDecl) (calls : List Call) : Except EntityError EntityDecl := calls.foldlM Call.apply d

/-- The rules for an operation that come with an owner key. -/
def ownerRule (key : String) : Operation → List Rule
  | .create => [.authenticated]
  | .read => [.everyone]
  | .update => [.owner (some key)]
  | .delete => [.owner (some key)]
  | .list => [.everyone]

theorem get?_ownerRules (key : String) (op : Operation) :
    (ownerRules key).get? op = some (ownerRule key op) := by
  cases op <;> rfl

/-- The key of a declared belongsTo relation. -/
def relationKey? (d : EntityDecl) (field : String) : Option String :=
  match d.fields.get? field with
  | some (.relation r) => if r.kind = .belongsTo then some (r.keyFor field d.name) else none
  | _ => none

theorem ownedBy_eq (d : EntityDecl) (field : String) : d.ownedBy field =
    match d.relationKey? field with
    | some key => .ok { d with defaultRules := ownerRules key, ownerField := some key }
    | none => .error (.notBelongsTo d.name field) := by
  unfold ownedBy relationKey?
  cases d.fields.get? field with
  | none => rfl
  | some spec =>
    cases spec with
    | column c => rfl
    | defined c => rfl
    | relation r =>
      dsimp only
      by_cases hkind : r.kind = .belongsTo
      · rw [if_pos hkind, if_pos hkind]
      · rw [if_neg hkind, if_neg hkind]

theorem nodup_of_firstRepeated? {seen names : List String} (h : firstRepeated? seen names = none) :
    names.Nodup ∧ ∀ name ∈ names, name ∉ seen := by
  induction names generalizing seen with
  | nil => exact ⟨List.nodup_nil, nofun⟩
  | cons name names ih =>
    rw [firstRepeated?] at h
    split at h
    · cases h
    · next hname =>
      obtain ⟨hnodup, hseen⟩ := ih h
      refine ⟨List.nodup_cons.2 ⟨fun hmem => hseen name hmem List.mem_cons_self, hnodup⟩, ?_⟩
      rw [List.forall_mem_cons]
      exact ⟨hname, fun other hother hmem => hseen other hother (List.mem_cons_of_mem _ hmem)⟩

theorem start_eq_ok {name : String} {fields : List (String × FieldSpec)} {d₀ : EntityDecl}
    (h : start name fields = .ok d₀) :
    d₀ = ⟨name, OrdMap.ofList fields, ∅, ∅, none, true⟩ ∧ (fields.map Prod.fst).Nodup := by
  unfold start at h
  split at h
  · cases h
  · split at h
    · cases h
    · next hnone =>
      cases h
      exact ⟨rfl, (nodup_of_firstRepeated? hnone).1⟩

theorem toList_fields_of_start {name : String} {fields : List (String × FieldSpec)} {d₀ : EntityDecl}
    (h : start name fields = .ok d₀) : d₀.fields.toList = fields := by
  obtain ⟨rfl, hnodup⟩ := start_eq_ok h
  exact OrdMap.toList_insertMany_of_disjoint hnodup fun _ _ => List.not_mem_nil

/-- What calls have made of a declaration that started without rules and owner. -/
structure After (d₀ : EntityDecl) (calls : List Call) (d : EntityDecl) : Prop where
  name : d.name = d₀.name
  fields : d.fields = d₀.fields
  rules : ∀ op, d.rules.get? op = Call.last? (Call.rulesFor? op) calls
  ownerField : d.ownerField = (Call.last? Call.owner? calls).bind d₀.relationKey?
  defaultRules : ∀ op, d.defaultRules.get? op = d.ownerField.map (ownerRule · op)
  timestamps : d.timestamps = (Call.last? Call.timestamps? calls).getD true

namespace After

variable {d₀ d d' : EntityDecl} {calls : List Call} {c : Call}

theorem relationKey?_eq (h : After d₀ calls d) : d.relationKey? = d₀.relationKey? := by
  funext field
  rw [relationKey?, relationKey?, h.fields, h.name]

theorem start {name : String} {fields : List (String × FieldSpec)} (h : start name fields = .ok d₀) :
    After d₀ [] d₀ := by
  obtain ⟨rfl, -⟩ := start_eq_ok h
  exact ⟨rfl, rfl, fun _ => rfl, rfl, fun _ => rfl, rfl⟩

theorem apply (h : After d₀ calls d) (happly : c.apply d = .ok d') : After d₀ (calls ++ [c]) d' := by
  cases c with
  | rules rs =>
    cases happly
    refine ⟨h.name, h.fields, fun op => ?_, ?_, h.defaultRules, ?_⟩ <;> rw [Call.last?_append_singleton]
    · rw [← h.rules]
      exact OrdMap.get?_union d.rules rs op
    · exact h.ownerField
    · exact h.timestamps
  | rule op' rs =>
    cases happly
    refine ⟨h.name, h.fields, fun op => ?_, ?_, h.defaultRules, ?_⟩ <;> rw [Call.last?_append_singleton]
    · rw [← h.rules]
      refine (OrdMap.get?_insert d.rules op' op rs).trans ?_
      by_cases hop : op = op' <;> simp [Call.rulesFor?, hop]
    · exact h.ownerField
    · exact h.timestamps
  | ownedBy field =>
    rw [Call.apply, ownedBy_eq] at happly
    split at happly
    · next key hkey =>
      cases happly
      -- the rules of an owner that was there before are gone, the explicit ones are not touched
      refine ⟨h.name, h.fields, fun op => ?_, ?_, fun op => get?_ownerRules key op, ?_⟩ <;>
        rw [Call.last?_append_singleton]
      · exact h.rules op
      · rw [← h.relationKey?_eq]
        exact hkey.symm
      · exact h.timestamps
    · cases happly
  | timestamps enabled =>
    cases happly
    refine ⟨h.name, h.fields, fun op => ?_, ?_, h.defaultRules, ?_⟩ <;> rw [Call.last?_append_singleton]
    · exact h.rules op
    · exact h.ownerField
    · rfl

theorem exists_apply (h : After d₀ calls d)
    (howned : ∀ field, c = .ownedBy field → (d₀.relationKey? field).isSome = true) :
    ∃ d', c.apply d = .ok d' := by
  cases c with
  | ownedBy field =>
    obtain ⟨key, hkey⟩ := Option.isSome_iff_exists.1 (howned field rfl)
    rw [← h.relationKey?_eq] at hkey
    rw [Call.apply, ownedBy_eq, hkey]
    exact ⟨_, rfl⟩
  | _ => exact ⟨_, rfl⟩

theorem exists_after {more : List Call} (h : After d₀ calls d)
    (howned : ∀ field, .ownedBy field ∈ more → (d₀.relationKey? field).isSome = true) :
    ∃ d', d.after more = .ok d' ∧ After d₀ (calls ++ more) d' := by
  induction more generalizing calls d with
  | nil => exact ⟨d, rfl, by rwa [List.append_nil]⟩
  | cons c more ih =>
    obtain ⟨d', happly⟩ := h.exists_apply fun field hc => howned field (hc ▸ List.mem_cons_self)
    obtain ⟨d'', hafter, h''⟩ := ih (h.apply happly) fun field hmem => howned field (List.mem_cons_of_mem _ hmem)
    refine ⟨d'', ?_, by rwa [List.append_assoc] at h''⟩
    rw [after, List.foldlM_cons, happly]
    exact hafter

end After

/-! ### Fields -/

/-- The definition that a declared field gets; the target of a relation is what the lookup gave. -/
inductive Defines {σ : Type} (lookup : TargetLookup (StateM σ)) (owner : String) :
    String × FieldSpec → String × FieldDef → Prop
  | column (field : String) (d : FieldDef) : Defines lookup owner (field, .column d) (field, d)
  | defined (field : String) (d : FieldDef) : Defines lookup owner (field, .defined d) (field, d)
  | relation {field target : String} {r : RelationSpec} {st st' : σ}
      (h : (lookup r.target).run st = (.ok target, st')) :
      Defines lookup owner (field, .relation r) (field, r.define field owner target)

section Fields

variable {σ : Type} {lookup : TargetLookup (StateM σ)} {owner field : String} {st st' : σ}

theorem defines_of_build {spec : FieldSpec} {d : FieldDef}
    (h : (spec.build lookup field owner).run st = (.ok d, st')) :
    Defines lookup owner (field, spec) (field, d) := by
  cases spec with
  | column c => cases h; exact .column _ _
  | defined c => cases h; exact .defined _ _
  | relation r =>
    rw [FieldSpec.build, StateT.run_bind] at h
    cases htarget : (lookup r.target).run st with
    | mk result st'' =>
      rw [htarget] at h
      cases result with
      | ok target => cases h; exact .relation htarget
      | error e => cases h

theorem forall₂_of_buildFields {specs : List (String × FieldSpec)} {built result : OrdMap String FieldDef}
    (hnodup : (specs.map Prod.fst).Nodup) (hfresh : ∀ name ∈ specs.map Prod.fst, name ∉ built.keys)
    (h : (buildFields lookup owner specs built).run st = (.ok result, st')) :
    ∃ defs, result.toList = built.toList ++ defs ∧ List.Forall₂ (Defines lookup owner) specs defs := by
  induction specs generalizing built st with
  | nil => cases h; exact ⟨[], (List.append_nil _).symm, .nil⟩
  | cons entry specs ih =>
    obtain ⟨name, spec⟩ := entry
    rw [List.map_cons, List.nodup_cons] at hnodup
    rw [List.map_cons, List.forall_mem_cons] at hfresh
    rw [buildFields, StateT.run_bind] at h
    cases hspec : (spec.build lookup name owner).run st with
    | mk r st'' =>
      rw [hspec] at h
      cases r with
      | error e => cases h
      | ok d =>
        have hrest : ∀ other ∈ specs.map Prod.fst, other ∉ (built.insert name d).keys := by
          intro other hother hmem
          rcases OrdMap.mem_keys_insert.1 hmem with rfl | hmem
          · exact hnodup.1 hother
          · exact hfresh.2 other hother hmem
        obtain ⟨defs, hlist, hdefs⟩ := ih hnodup.2 hrest h
        refine ⟨(name, d) :: defs, ?_, .cons (defines_of_build hspec) hdefs⟩
        rw [hlist, OrdMap.toList_insert_of_not_mem hfresh.1, List.append_assoc]
        rfl

end Fields

/-! ### Building -/

/-- What an entity is that is built from declared fields after calls. -/
structure BuiltAfter {σ : Type} (lookup : TargetLookup (StateM σ)) (entity : String)
    (specs : List (String × FieldSpec)) (calls : List Call) (e : Entity) : Prop where
  name : e.name = entity
  fields : List.Forall₂ (Defines lookup entity) specs e.fields.toList
  /-- The owner key is the foreign key of the last field that was made the owner. -/
  ownerField : e.ownerField =
    (Call.last? Call.owner? calls).bind fun field => (e.field? field).bind (·.key?)
  /-- The last rules that were set for an operation count, and else those of the owner. -/
  rulesFor : ∀ op, e.rulesFor op =
    (Call.last? (Call.rulesFor? op) calls).or (e.ownerField.map (ownerRule · op))
  timestamps : e.timestamps = (Call.last? Call.timestamps? calls).getD true

section Building

theorem build_eq {m : Type → Type} [Monad m] [LawfulMonad m] (lookup : TargetLookup m) (d : EntityDecl) :
    d.build lookup = Except.map d.freeze <$> buildFields lookup d.name d.fields.toList ∅ := by
  rw [build, map_eq_pure_bind]
  refine bind_congr fun result => ?_
  cases result <;> rfl

/-- The fields of the built entity, or the error, are those of the declared fields alone. -/
theorem map_fields_build {m : Type → Type} [Monad m] [LawfulMonad m] (lookup : TargetLookup m) (d : EntityDecl) :
    Except.map Entity.fields <$> d.build lookup = buildFields lookup d.name d.fields.toList ∅ := by
  rw [build_eq, ← comp_map]
  refine Eq.trans (congrArg (· <$> _) ?_) (id_map _)
  funext result
  cases result <;> rfl

variable {σ : Type} {lookup : TargetLookup (StateM σ)} {st st' : σ} {name field key : String}
  {fields : List (String × FieldSpec)} {calls : List Call} {d₀ d : EntityDecl} {e : Entity}

theorem exists_fields_of_build (h : (d.build lookup).run st = (.ok e, st')) :
    ∃ fields, (buildFields lookup d.name d.fields.toList ∅).run st = (.ok fields, st') ∧
      e = d.freeze fields := by
  rw [build_eq, StateT.run_map] at h
  cases hfields : (buildFields lookup d.name d.fields.toList ∅).run st with
  | mk result st'' =>
    rw [hfields] at h
    cases result with
    | ok fields => cases h; exact ⟨fields, rfl, rfl⟩
    | error e => cases h

theorem relationKey?_eq_some_iff : d.relationKey? field = some key ↔
    ∃ r, d.fields.get? field = some (.relation r) ∧ r.kind = .belongsTo ∧ r.keyFor field d.name = key := by
  unfold relationKey?
  cases d.fields.get? field with
  | none => simp
  | some spec => cases spec <;> simp

theorem key?_define {r : RelationSpec} (hkind : r.kind = .belongsTo) (field owner target : String) :
    (r.define field owner target).key? = some (r.keyFor field owner) := by
  simp [FieldDef.key?, FieldDef.belongsTo?, RelationSpec.define, hkind]

theorem exists_of_forall₂ {α β : Type} {R : α → β → Prop} {as : List α} {bs : List β} (h : List.Forall₂ R as bs)
    {a : α} (ha : a ∈ as) : ∃ b ∈ bs, R a b := by
  induction h with
  | nil => cases ha
  | cons hab _ ih =>
    rcases List.mem_cons.1 ha with rfl | ha
    · exact ⟨_, List.mem_cons_self, hab⟩
    · obtain ⟨b, hb, hab⟩ := ih ha
      exact ⟨b, List.mem_cons_of_mem _ hb, hab⟩

/-- The key of a declared relation is the foreign key of the field that it becomes. -/
theorem key?_of_relationKey? (hkey : d.relationKey? field = some key)
    (h : List.Forall₂ (Defines lookup d.name) d.fields.toList e.fields.toList) :
    (e.field? field).bind (·.key?) = some key := by
  obtain ⟨r, hr, hkind, rfl⟩ := relationKey?_eq_some_iff.1 hkey
  obtain ⟨⟨field', def'⟩, hmem, hdefines⟩ := exists_of_forall₂ h (OrdMap.get?_eq_some_iff.1 hr)
  cases hdefines with
  | relation htarget =>
    rw [Entity.field?, OrdMap.get?_eq_some_iff.2 hmem]
    exact key?_define hkind _ _ _

theorem After.builtAfter (h : After d₀ calls d) (hnodup : (d₀.fields.toList.map Prod.fst).Nodup)
    (howned : ∀ field, .ownedBy field ∈ calls → (d₀.relationKey? field).isSome = true)
    (hbuild : (d.build lookup).run st = (.ok e, st')) :
    BuiltAfter lookup d₀.name d₀.fields.toList calls e := by
  obtain ⟨fields, hfields, rfl⟩ := exists_fields_of_build hbuild
  rw [h.name, h.fields] at hfields
  obtain ⟨defs, hlist, hdefs⟩ := forall₂_of_buildFields hnodup (fun _ _ => List.not_mem_nil) hfields
  have hforall : List.Forall₂ (Defines lookup d₀.name) d₀.fields.toList (d.freeze fields).fields.toList := by
    show List.Forall₂ _ _ fields.toList
    rw [hlist]
    exact hdefs
  refine ⟨h.name, hforall, ?_, fun op => ?_, h.timestamps⟩
  · show d.ownerField = _
    rw [h.ownerField]
    cases hlast : Call.last? Call.owner? calls with
    | none => rfl
    | some field =>
      obtain ⟨key, hkey⟩ := Option.isSome_iff_exists.1 (howned field (Call.mem_of_last?_owner? hlast))
      rw [Option.bind_some, Option.bind_some, hkey, key?_of_relationKey? hkey hforall]
  · show (d.defaultRules.union d.rules).get? op = _
    rw [OrdMap.get?_union, h.rules, h.defaultRules]
    rfl

/-- In whatever order rules, owners and time columns are set, the entity has the declared fields and, for each
operation, the last rules that were set for it, or else those of the last owner. -/
theorem build_after {name : String} {fields : List (String × FieldSpec)} {d₀ : EntityDecl}
    (hstart : start name fields = .ok d₀) {calls : List Call}
    (howned : ∀ field, .ownedBy field ∈ calls → ∃ r, (field, .relation r) ∈ fields ∧ r.kind = .belongsTo)
    {σ : Type} (lookup : TargetLookup (StateM σ)) :
    ∃ d, d₀.after calls = .ok d ∧
      Except.map Entity.fields <$> d.build lookup = Except.map Entity.fields <$> d₀.build lookup ∧
      ∀ st e st', (d.build lookup).run st = (.ok e, st') → BuiltAfter lookup name fields calls e := by
  have hfields := toList_fields_of_start hstart
  have hrelation : ∀ field, .ownedBy field ∈ calls → (d₀.relationKey? field).isSome = true := by
    intro field hmem
    obtain ⟨r, hr, hkind⟩ := howned field hmem
    rw [← hfields, ← OrdMap.get?_eq_some_iff] at hr
    exact Option.isSome_iff_exists.2 ⟨_, relationKey?_eq_some_iff.2 ⟨r, hr, hkind, rfl⟩⟩
  obtain ⟨d, hafter, h⟩ := (After.start hstart).exists_after hrelation
  refine ⟨d, hafter, ?_, fun st e st' hbuild => ?_⟩
  · rw [map_fields_build, map_fields_build, h.name, h.fields]
  · have hbuilt := h.builtAfter d₀.fields.nodup_keys hrelation hbuild
    rw [hfields] at hbuilt
    obtain ⟨rfl, -⟩ := start_eq_ok hstart
    exact hbuilt

end Building

/-- Reviews with an author and an editor. -/
def reviewFields : List (String × FieldSpec) :=
  [("author", .relation ⟨.belongsTo, .named "user", none, none, none, false⟩),
    ("text", .column (FieldDef.ofType .string)),
    ("editor", .relation ⟨.belongsTo, .named "user", some "editedBy", none, none, true⟩)]

/-- Rules before and after two owners. -/
def reviewCalls : List Call :=
  [.rule .read [.authenticated], .ownedBy "author", .rules (OrdMap.ofList [(.delete, [.admin])]),
    .timestamps false, .ownedBy "editor", .rule .read [.admin]]

/-- Every target is called `user`. -/
def toUsers : TargetLookup (StateM Unit) := fun _ => pure (.ok "user")

theorem build_after_reviews : ∃ d₀ d e, start "review" reviewFields = .ok d₀ ∧ d₀.after reviewCalls = .ok d ∧
    (d.build toUsers).run () = (.ok e, ()) ∧ BuiltAfter toUsers "review" reviewFields reviewCalls e ∧
      e.fields.keys = ["author", "text", "editor"] ∧ e.ownerField = some "editedBy" ∧
      e.rulesFor .read = some [.admin] ∧ e.rulesFor .delete = some [.admin] ∧
      e.rulesFor .update = some [.owner (some "editedBy")] := by
  have howned : ∀ field, .ownedBy field ∈ reviewCalls →
      ∃ r, (field, .relation r) ∈ reviewFields ∧ r.kind = .belongsTo := by
    intro field hmem
    simp only [reviewCalls, List.mem_cons, Call.ownedBy.injEq, reduceCtorEq, false_or, or_false,
      List.not_mem_nil] at hmem
    rcases hmem with rfl | rfl
    · exact ⟨_, List.mem_cons_self, rfl⟩
    · exact ⟨_, List.mem_cons_of_mem _ (List.mem_cons_of_mem _ List.mem_cons_self), rfl⟩
  have hstart : start "review" reviewFields =
      .ok ⟨"review", OrdMap.ofList reviewFields, ∅, ∅, none, true⟩ := rfl
  obtain ⟨d, hafter, -, hbuilt⟩ := build_after hstart howned toUsers
  cases hafter
  exact ⟨_, _, _, rfl, rfl, rfl, hbuilt () _ () rfl, rfl, rfl, rfl, rfl, rfl⟩

end EntityDecl

end EntityRest
