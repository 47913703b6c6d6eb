import EntityRest.Proofs.Plugin.Counterpart

/-! # Locked fields

A locked field of a declared entity that is resolved is still there, locked, and has its relation, unless
a change that meets the entity puts another field in its place: an added one, or one that it renames
(`resolveWith_locked`). Changes that would remove, rename or unlock the field itself leave it alone. Added
fields come over whatever has their name, locked or not (`unlocked_by_insert`). -/

namespace EntityRest

/-- The field is there and locked, and its relation is the given one. -/
def IsLocked (fields : OrdMap String FieldDef) (name : String) (relation : Option Relation) : Prop :=
  ∃ d, fields.get? name = some d ∧ d.locked = true ∧ d.relation = relation

namespace IsLocked

variable {fields : OrdMap String FieldDef} {name : String} {relation : Option Relation}

theorem locked {d : FieldDef} (h : IsLocked fields name relation) (hd : fields.get? name = some d) :
    d.locked = true := by
  obtain ⟨d', hd', hlocked, -⟩ := h
  cases hd.symm.trans hd'
  exact hlocked

theorem congr {fields' : OrdMap String FieldDef} (h : IsLocked fields name relation)
    (hget : fields'.get? name = fields.get? name) : IsLocked fields' name relation := by
  obtain ⟨d, hd, hlocked⟩ := h
  exact ⟨d, hget.trans hd, hlocked⟩

theorem insert {other : String} (h : IsLocked fields name relation) (hne : name ≠ other) (d : FieldDef) :
    IsLocked (fields.insert other d) name relation :=
  h.congr (by rw [OrdMap.get?_insert, if_neg hne])

theorem erase {other : String} (h : IsLocked fields name relation) (hne : name ≠ other) :
    IsLocked (fields.erase other) name relation :=
  h.congr (by rw [OrdMap.get?_erase, if_neg hne])

theorem rename {other target : String} (h : IsLocked fields name relation) (hne : name ≠ other)
    (htarget : name ≠ target) : IsLocked (fields.rename other target) name relation := by
  cases hother : fields.get? other with
  | none => rwa [OrdMap.rename_of_get?_eq_none hother]
  | some d => exact h.congr (by rw [OrdMap.get?_rename hother, if_neg htarget, if_neg hne])

/-- A patch says nothing about locks and relations. -/
theorem modify {other : String} (h : IsLocked fields name relation) (p : FieldPatch) :
    IsLocked (fields.modify other p.apply) name relation := by
  obtain ⟨d, hd, hlocked, hrelation⟩ := h
  refine ⟨if name = other then p.apply d else d, ?_, ?_, ?_⟩
  · rw [OrdMap.modify, OrdMap.get?_mapEntries, hd, Option.map_some]
  · split
    · exact hlocked
    · exact hlocked
  · split
    · exact hrelation
    · exact hrelation

end IsLocked

namespace Resolve

/-! ### The changes of one entity -/

namespace FieldWork

variable {plugin entity field name : String} {relation : Option Relation} {w : FieldWork} {c : FieldChange}

/-- The change of `field` puts another field under the name `name`: an added one, or `field` itself,
which it renames. -/
def replaces (w : FieldWork) (field : String) (c : FieldChange) (name : String) : Bool :=
  match c.add with
  | some _ => field = name
  | none =>
    field ≠ name && c.rename == some name &&
      (w.fields.get? field).any fun d => !d.locked && !c.remove

/-- One of the changes puts another field under the name. -/
def replacesAny (plugin entity name : String) : FieldWork → List (String × FieldChange) → Bool
  | _, [] => false
  | w, (field, c) :: changes =>
    w.replaces field c name || replacesAny plugin entity name (w.change plugin entity field c) changes

theorem isLocked_patch (h : IsLocked w.fields name relation) (field : String) (p : Option FieldPatch) :
    IsLocked (w.patch field p).fields name relation := by
  cases p with
  | none => exact h
  | some p => exact h.modify p

/-- A rename of a locked field is refused, and one of another field leaves it in place. -/
theorem isLocked_rename (h : IsLocked w.fields name relation) {target : Option String}
    (hfree : target = some name → field ≠ name → (w.fields.get? field).elim false (·.locked) = true) :
    IsLocked (w.rename plugin entity field target).1.fields name relation := by
  cases target with
  | none => exact h
  | some target =>
    unfold rename
    dsimp only
    split
    · exact h
    · next hopen =>
      have hne : name ≠ field := by
        rintro rfl
        obtain ⟨d, hd, hlocked, -⟩ := h
        rw [hd] at hopen
        exact hopen hlocked
      refine h.rename hne ?_
      rintro rfl
      exact hopen (hfree rfl hne.symm)

theorem isLocked_change (h : IsLocked w.fields name relation) (hc : w.replaces field c name = false) :
    IsLocked (w.change plugin entity field c).fields name relation := by
  unfold replaces at hc
  unfold change
  cases hadd : c.add with
  | some d =>
    rw [hadd] at hc
    exact h.insert (Ne.symm (of_decide_eq_false hc)) d
  | none =>
    rw [hadd] at hc
    cases hd : w.fields.get? field with
    | none => exact h
    | some d =>
      rw [hd] at hc
      dsimp only
      split
      · next herase =>
        refine h.erase ?_
        rintro rfl
        simp [h.locked hd] at herase
      · next hstays =>
        have hfields : (if c.remove = true then w.warn plugin entity field "cannot remove locked field"
            else w).fields = w.fields := by
          split
          · rfl
          · rfl
        refine isLocked_patch (isLocked_rename (h.congr (by rw [hfields])) fun htarget hne => ?_) _ _
        -- the field at hand is renamed to `name`, which it is only if it is not locked
        rw [hfields, hd, Option.elim_some]
        rw [htarget, Option.any_some] at hc
        by_contra hopen
        cases hremove : c.remove with
        | true => exact hstays (by simp [hremove, hopen])
        | false => simp [hne, hremove, hopen] at hc

theorem isLocked_foldl {changes : List (String × FieldChange)} (h : IsLocked w.fields name relation)
    (hc : replacesAny plugin entity name w changes = false) :
    IsLocked (changes.foldl (fun w e => w.change plugin entity e.1 e.2) w).fields name relation := by
  induction changes generalizing w with
  | nil => exact h
  | cons e changes ih =>
    obtain ⟨field, c⟩ := e
    rw [replacesAny, Bool.or_eq_false_iff] at hc
    exact ih (isLocked_change h hc.1) hc.2

end FieldWork

end Resolve

/-- The change of an entity puts another field under the name of a field. -/
def EntityChange.replacesField (plugin : String) (c : EntityChange) (entity field : String)
    (d : PluginEntity) : Bool :=
  c.addFields.contains field ||
    Resolve.FieldWork.replacesAny plugin (c.nameFor entity) field ⟨d.fields.union c.addFields, []⟩
      c.fields.toList

theorem EntityChange.isLocked_applyTo {plugin entity field : String} {c : EntityChange} {d : PluginEntity}
    {relation : Option Relation} (h : IsLocked d.fields field relation)
    (hc : c.replacesField plugin entity field d = false) :
    IsLocked (c.applyTo plugin entity d).fields field relation := by
  rw [replacesField, Bool.or_eq_false_iff] at hc
  have hkept : field ∉ c.addFields.keys := fun hmem =>
    Bool.false_ne_true (hc.1.symm.trans (OrdMap.contains_iff_mem_keys.2 hmem))
  have hunion : IsLocked (d.fields.union c.addFields) field relation :=
    h.congr (OrdMap.get?_insertMany_of_not_mem hkept)
  exact Resolve.FieldWork.isLocked_foldl (w := ⟨d.fields.union c.addFields, []⟩) hunion hc.2

namespace Resolve

/-! ### The changes of all entities -/

namespace Work

variable {plugin field : String} {relation : Option Relation} {w : Work}

/-- One of the changes that meet the entity puts another field under the name of a field of it. -/
def replacesField (plugin field : String) : Work → List (String × EntityChange) → Tracked → Bool
  | _, [], _ => false
  | w, (entity, c) :: changes, t =>
    (entity = t.name && c.replacesField plugin entity field t.entity) ||
      (w.pass plugin entity c t).any (replacesField plugin field (w.change plugin entity c) changes)

theorem isLocked_follow {changes : List (String × EntityChange)} {t t' : Tracked}
    (h : w.follow plugin changes t = some t') (hlocked : IsLocked t.entity.fields field relation)
    (hc : w.replacesField plugin field changes t = false) : IsLocked t'.entity.fields field relation := by
  induction changes generalizing w t with
  | nil => cases h; exact hlocked
  | cons e changes ih =>
    obtain ⟨entity, c⟩ := e
    obtain ⟨t₁, hpass, hrest⟩ := follow_cons_eq_some h
    rw [replacesField, hpass, Option.any_some, Bool.or_eq_false_iff] at hc
    refine ih hrest ?_ hc.2
    rcases pass_eq_some hpass with ⟨rfl, -, rfl⟩ | ⟨-, -, rfl⟩
    · have hfree : c.replacesField plugin t.name field t.entity = false := by
        simpa using hc.1
      exact EntityChange.isLocked_applyTo hlocked hfree
    · exact hlocked

end Work

end Resolve

open Resolve

/-- A locked field of a declared entity that is resolved is still there, locked, and with its relation, if
no change that meets the entity puts another field in its place. -/
theorem Plugin.resolveWith_locked (p : Plugin) (x : Extension) (field : String) {n : String}
    {d : PluginEntity} {f : FieldDef} {t : Tracked} (hd : p.entities.get? n = some d)
    (hf : d.fields.get? field = some f) (hlocked : f.locked = true) (ht : counterpart? p x n = some t)
    (hfree : (Work.start p).replacesField p.id field x.entities.toList (.ofDeclared n d) = false) :
    ∃ e ∈ (p.resolveWith x).1.entities, e.name = t.name ∧
      ∃ f', e.field? field = some f' ∧ f'.locked = true ∧ f'.relation = f.relation := by
  obtain ⟨hfollow, -⟩ := (counterpart?_eq_some_iff hd).1 ht
  have hkept : IsLocked t.entity.fields field f.relation :=
    Work.isLocked_follow hfollow ⟨f, hf, hlocked, rfl⟩ hfree
  exact ⟨_, mem_entities_resolveWith ht, rfl, hkept⟩

/-- Users whose address is locked. -/
def Plugin.lockedAddress : Plugin :=
  { Plugin.ofId "auth" "Accounts" "1.0.0" with
    entities := OrdMap.ofList
      [("user",
        { fields := OrdMap.ofList
            [("email", { FieldDef.ofType .string with locked := true }),
              ("nickname", FieldDef.ofType .string)] })] }

/-- An extension that renames the users and tries to remove, rename and patch their address. -/
def Extension.againstAddress : Extension :=
  (((((({} : Extension).renameEntity "user" "member").removeField "user" "email").renameField "user"
    "email" "mail").patchField "user" "email" { optional := some true }).renameField "user" "nickname"
    "handle")

theorem Plugin.resolveWith_locked_againstAddress :
    ∃ e ∈ (Plugin.lockedAddress.resolveWith .againstAddress).1.entities, e.name = "member" ∧
      ∃ f, e.field? "email" = some f ∧ f.locked = true ∧ f.relation = none :=
  Plugin.resolveWith_locked Plugin.lockedAddress .againstAddress "email" (n := "user") rfl rfl rfl rfl
    (by decide +kernel)

/-- An added field comes over the locked one, which is locked no more. -/
theorem Plugin.unlocked_by_insert :
    let x := ({} : Extension).insertField "user" "email" (FieldDef.ofType .string)
    ((Plugin.lockedAddress.entities.get? "user").bind fun d =>
        (d.fields.get? "email").map (·.locked)) = some true ∧
      ((Plugin.lockedAddress.resolveWith x).1.entities.map fun e =>
        (e.name, (e.field? "email").map (·.locked))) = [("user", some false)] := by
  decide +kernel

end EntityRest
