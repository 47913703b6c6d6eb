import EntityRest.Plugin.Resolve
import EntityRest.Proofs.Data.Entries

/-! # Declared entities on their way through an extension

A change acts on the entity that bears its key at the time. What becomes of a declared entity is therefore
told by the changes that meet it under the name it then has: each may change its fields, give it another
name, and take it away if it is not required. It is lost as well when its name is given to another entity.

`Work.follow` follows one entity through a list of changes in this way. What is left after all changes is
what is left of the declared entities, each followed by itself (`Holds.run`), and an entity that is not
left met one of the two fates (`follow_eq_none`). -/

namespace EntityRest

namespace EntityChange

/-- The change takes the entity away. -/
def removes (c : EntityChange) (d : PluginEntity) : Bool := c.remove && !d.required

/-- The name that the change leaves an entity under. -/
def nameFor (c : EntityChange) (name : String) : String := c.rename.getD name

theorem rename_of_nameFor_ne {c : EntityChange} {name : String} (h : c.nameFor name ≠ name) :
    c.rename = some (c.nameFor name) := by
  unfold nameFor at h ⊢
  cases hrename : c.rename with
  | none => rw [hrename] at h; exact absurd rfl h
  | some target => rfl

/-- What the change makes of a definition. -/
def applyTo (plugin : String) (c : EntityChange) (name : String) (d : PluginEntity) : PluginEntity :=
  { d with fields := (Resolve.changeFields plugin (c.nameFor name) d.fields c).fields }

end EntityChange

namespace Resolve

/-- A declared entity under the name that it has by now. -/
structure Tracked where
  name : String
  /-- The name that it had before it was last renamed, or the declared one if it never was. -/
  formerName : String
  entity : PluginEntity

namespace Tracked

/-- An entity as it is declared. -/
def ofDeclared (name : String) (d : PluginEntity) : Tracked := ⟨name, name, d⟩

def entry (t : Tracked) : String × PluginEntity := (t.name, t.entity)

/-- The entity after a change that meets it and does not take it away. -/
def changed (plugin : String) (t : Tracked) (c : EntityChange) : Tracked where
  name := c.nameFor t.name
  formerName := if c.nameFor t.name = t.name then t.formerName else t.name
  entity := c.applyTo plugin t.name t.entity

def change (plugin : String) (t : Tracked) (c : EntityChange) : Option Tracked :=
  if c.removes t.entity then none else some (t.changed plugin c)

end Tracked

namespace Work

variable {plugin : String} {w : Work} {entity : String} {c : EntityChange}

/-- Runs changes one after the other. -/
def run (plugin : String) (w : Work) (changes : List (String × EntityChange)) : Work :=
  changes.foldl (fun w e => w.change plugin e.1 e.2) w

/-- The change renames the entity of its key to `name`, where `name` is that of another entity. -/
def givesAway (w : Work) (entity : String) (c : EntityChange) (name : String) : Bool :=
  entity ≠ name && c.rename == some name && (w.entities.get? entity).any (!c.removes ·)

/-- What a change makes of an entity that is there. -/
def pass (plugin : String) (w : Work) (entity : String) (c : EntityChange) (t : Tracked) :
    Option Tracked :=
  if t.name = entity then t.change plugin c else if w.givesAway entity c t.name then none else some t

/-- What a list of changes makes of an entity that is there. -/
def follow (plugin : String) : Work → List (String × EntityChange) → Tracked → Option Tracked
  | _, [], t => some t
  | w, (entity, c) :: changes, t =>
    (w.pass plugin entity c t).bind (follow plugin (w.change plugin entity c) changes)

/-! ### One change -/

theorem rename_of_same (w : Work) (h : c.nameFor entity = entity) :
    w.rename entity c.rename = (w, entity) := by
  unfold EntityChange.nameFor at h
  cases hrename : c.rename with
  | none => rfl
  | some name => rw [hrename] at h; exact if_pos h

theorem rename_of_ne (w : Work) (h : c.nameFor entity ≠ entity) :
    w.rename entity c.rename =
      ({ entities := w.entities.rename entity (c.nameFor entity)
         renames := w.renames.insert (c.nameFor entity) entity
         warnings := w.warnings ++ overwriteWarnings w.entities entity (c.nameFor entity) },
        c.nameFor entity) := by
  rw [EntityChange.rename_of_nameFor_ne h]
  exact if_neg h

theorem rename_eq (w : Work) (entity : String) (c : EntityChange) :
    (w.rename entity c.rename).2 = c.nameFor entity ∧
      (w.rename entity c.rename).1.entities = w.entities.rename entity (c.nameFor entity) ∧
      (w.rename entity c.rename).1.renames = if c.nameFor entity = entity then w.renames else
        w.renames.insert (c.nameFor entity) entity := by
  by_cases h : c.nameFor entity = entity
  · rw [w.rename_of_same h, if_pos h, h, OrdMap.rename_self]
    exact ⟨rfl, rfl, rfl⟩
  · rw [w.rename_of_ne h, if_neg h]
    exact ⟨rfl, rfl, rfl⟩

theorem changeFields_eq (plugin : String) {d : PluginEntity} (h : w.entities.get? entity = some d)
    (c : EntityChange) :
    (w.changeFields plugin entity c).entities = w.entities.replace entity
        { d with fields := (Resolve.changeFields plugin entity d.fields c).fields } ∧
      (w.changeFields plugin entity c).renames = w.renames := by
  rw [changeFields, h]
  exact ⟨rfl, rfl⟩

theorem rename_changeFields {d : PluginEntity} (h : w.entities.get? entity = some d) (c : EntityChange) :
    let done := (w.rename entity c.rename).1.changeFields plugin (w.rename entity c.rename).2 c
    done.entities = (w.entities.rename entity (c.nameFor entity)).replace (c.nameFor entity)
        (c.applyTo plugin entity d) ∧
      done.renames = if c.nameFor entity = entity then w.renames else
        w.renames.insert (c.nameFor entity) entity := by
  obtain ⟨hname, hentities, hrenames⟩ := w.rename_eq entity c
  have hget : (w.rename entity c.rename).1.entities.get? (c.nameFor entity) = some d := by
    rw [hentities, OrdMap.get?_rename h, if_pos rfl]
  obtain ⟨hfields, hkept⟩ := changeFields_eq plugin hget c
  dsimp only
  rw [hname, hfields, hkept, hentities, hrenames]
  exact ⟨rfl, rfl⟩

/-- All that a change can do. -/
theorem change_cases (plugin : String) (w : Work) (entity : String) (c : EntityChange) :
    w.entities.get? entity = none ∧ (w.change plugin entity c).entities = w.entities ∧
      (w.change plugin entity c).renames = w.renames ∨
    ∃ d, w.entities.get? entity = some d ∧
      (c.removes d = true ∧ (w.change plugin entity c).entities = w.entities.erase entity ∧
        (w.change plugin entity c).renames = w.renames ∨
      c.removes d = false ∧
        (w.change plugin entity c).entities = (w.entities.rename entity (c.nameFor entity)).replace
          (c.nameFor entity) (c.applyTo plugin entity d) ∧
        (w.change plugin entity c).renames = if c.nameFor entity = entity then w.renames else
          w.renames.insert (c.nameFor entity) entity) := by
  unfold change
  cases hget : w.entities.get? entity with
  | none => exact .inl ⟨rfl, rfl, rfl⟩
  | some d =>
    refine .inr ⟨d, rfl, ?_⟩
    dsimp only
    cases hr : c.removes d with
    | true =>
      rw [EntityChange.removes] at hr
      rw [hr]
      exact .inl ⟨rfl, rfl, rfl⟩
    | false =>
      rw [EntityChange.removes] at hr
      rw [hr]
      refine .inr ⟨rfl, ?_⟩
      cases c.remove with
      | false => exact rename_changeFields hget c
      | true => exact rename_changeFields (w := w.warn ..) hget c

theorem renames_change {d : PluginEntity} (h : w.entities.get? entity = some d)
    (hr : c.removes d = false) :
    (w.change plugin entity c).renames = if c.nameFor entity = entity then w.renames else
      w.renames.insert (c.nameFor entity) entity := by
  rcases w.change_cases plugin entity c with ⟨hnone, -⟩ | ⟨d', hd', ⟨hr', -⟩ | ⟨-, -, hrenames⟩⟩
  · rw [h] at hnone; cases hnone
  · rw [h] at hd'; cases hd'; rw [hr] at hr'; cases hr'
  · exact hrenames

theorem renames_change_cases (plugin : String) (w : Work) (entity : String) (c : EntityChange) :
    (w.change plugin entity c).renames = w.renames ∨
      ∃ d, w.entities.get? entity = some d ∧ c.removes d = false ∧
        (w.change plugin entity c).renames = w.renames.insert (c.nameFor entity) entity := by
  rcases w.change_cases plugin entity c with ⟨-, -, h⟩ | ⟨d, hd, ⟨-, -, h⟩ | ⟨hr, -, h⟩⟩
  · exact .inl h
  · exact .inl h
  · split at h
    · exact .inl h
    · exact .inr ⟨d, hd, hr, h⟩

theorem givesAway_eq_true_iff {name : String} : w.givesAway entity c name = true ↔
    entity ≠ name ∧ c.rename = some name ∧ ∃ d, w.entities.get? entity = some d ∧ c.removes d = false := by
  rw [givesAway, Bool.and_eq_true, Bool.and_eq_true, decide_eq_true_iff, beq_iff_eq, and_assoc,
    Option.any_eq_true]
  simp only [Bool.not_eq_true']

theorem pass_eq_some {t t' : Tracked} (h : w.pass plugin entity c t = some t') :
    t.name = entity ∧ c.removes t.entity = false ∧ t' = t.changed plugin c ∨
      t.name ≠ entity ∧ w.givesAway entity c t.name = false ∧ t' = t := by
  unfold pass Tracked.change at h
  split at h
  · next hname =>
    split at h
    · cases h
    · next hr => cases h; exact .inl ⟨hname, Bool.eq_false_iff.2 hr, rfl⟩
  · next hname =>
    split at h
    · cases h
    · next hgives => cases h; exact .inr ⟨hname, Bool.eq_false_iff.2 hgives, rfl⟩

/-- What a change makes of an entry of the map. -/
def passEntry (plugin : String) (w : Work) (entity : String) (c : EntityChange)
    (e : String × PluginEntity) : Option (String × PluginEntity) :=
  (w.pass plugin entity c (.ofDeclared e.1 e.2)).map Tracked.entry

theorem map_entry_pass (t : Tracked) :
    (w.pass plugin entity c t).map Tracked.entry = w.passEntry plugin entity c t.entry := by
  unfold passEntry pass Tracked.change
  show _ = Option.map _ (if t.name = entity then _ else if w.givesAway entity c t.name then _ else _)
  split
  · show _ = Option.map _ (if c.removes t.entity then _ else _)
    split <;> rfl
  · split <;> rfl

theorem passEntry_of_absent {e : String × PluginEntity} (h : w.entities.get? entity = none)
    (he : e ∈ w.entities.toList) : w.passEntry plugin entity c e = some e := by
  have hne : e.1 ≠ entity := fun heq =>
    OrdMap.get?_eq_none_iff.1 h (List.mem_map.2 ⟨e, he, heq⟩)
  have hkept : w.givesAway entity c e.1 = false := by
    rw [givesAway, h, Option.any_none, Bool.and_false]
  unfold passEntry pass Tracked.ofDeclared
  rw [if_neg hne, hkept]
  rfl

section Present

variable {d : PluginEntity} {e : String × PluginEntity}

theorem givesAway_iff (h : w.entities.get? entity = some d) (hr : c.removes d = false) {name : String}
    (hne : name ≠ entity) : w.givesAway entity c name = true ↔ name = c.nameFor entity := by
  rw [givesAway_eq_true_iff]
  constructor
  · rintro ⟨-, hrename, -⟩
    rw [EntityChange.nameFor, hrename, Option.getD_some]
  · intro hname
    refine ⟨hne.symm, ?_, d, h, hr⟩
    rw [hname]
    exact EntityChange.rename_of_nameFor_ne (hname ▸ hne)

theorem get?_entry (h : w.entities.get? entity = some d) (he : e ∈ w.entities.toList)
    (hname : e.1 = entity) : e.2 = d := by
  have hget : w.entities.get? e.1 = some e.2 := OrdMap.get?_eq_some_iff.2 he
  rw [hname, h] at hget
  exact (Option.some.inj hget).symm

theorem passEntry_of_removes (h : w.entities.get? entity = some d) (hr : c.removes d = true)
    (he : e ∈ w.entities.toList) :
    w.passEntry plugin entity c e = if e.1 = entity then none else some e := by
  unfold passEntry pass Tracked.ofDeclared Tracked.change
  by_cases hname : e.1 = entity
  · rw [if_pos hname, if_pos hname, get?_entry h he hname, hr]
    rfl
  · have hkept : w.givesAway entity c e.1 = false := by
      rw [givesAway, h, Option.any_some, hr, Bool.not_true, Bool.and_false]
    rw [if_neg hname, if_neg hname, hkept]
    rfl

theorem passEntry_of_kept (h : w.entities.get? entity = some d) (hr : c.removes d = false)
    (he : e ∈ w.entities.toList) :
    w.passEntry plugin entity c e = (OrdMap.moved entity (c.nameFor entity) e).map fun e =>
      (e.1, if e.1 = c.nameFor entity then c.applyTo plugin entity d else e.2) := by
  unfold passEntry pass Tracked.ofDeclared Tracked.change OrdMap.moved
  by_cases hname : e.1 = entity
  · rw [if_pos hname, if_pos hname, get?_entry h he hname, hr]
    simp [Tracked.entry, Tracked.changed, hname]
  · have hgives := givesAway_iff h hr hname
    rw [if_neg hname, if_neg hname]
    by_cases htarget : e.1 = c.nameFor entity
    · rw [hgives.2 htarget, if_pos htarget]; rfl
    · rw [Bool.eq_false_iff.2 fun hg => htarget (hgives.1 hg), if_neg htarget]
      simp [Tracked.entry, htarget]

end Present

/-- The entities after a change are those that it leaves of the ones before; if it gives no name away,
they stand in the same order. -/
theorem toList_change (plugin : String) (w : Work) (entity : String) (c : EntityChange) :
    (w.change plugin entity c).entities.toList.Perm
        (w.entities.toList.filterMap (w.passEntry plugin entity c)) ∧
      ((∀ name ∈ w.entities.keys, w.givesAway entity c name = false) →
        (w.change plugin entity c).entities.toList =
          w.entities.toList.filterMap (w.passEntry plugin entity c)) := by
  rcases w.change_cases plugin entity c with ⟨hget, hentities, -⟩ | ⟨d, hget, ⟨hr, hentities, -⟩ | hkept⟩
  · have hpass : w.entities.toList.filterMap (w.passEntry plugin entity c) = w.entities.toList := by
      rw [List.filterMap_congr fun e he => passEntry_of_absent hget he, List.filterMap_some]
    rw [hentities, hpass]
    exact ⟨.refl _, fun _ => rfl⟩
  · have hpass : w.entities.toList.filterMap (w.passEntry plugin entity c) =
        (w.entities.erase entity).toList := by
      rw [List.filterMap_congr fun e he => passEntry_of_removes hget hr he, OrdMap.toList_erase,
        ← List.filterMap_eq_filter]
      refine List.filterMap_congr fun e _ => ?_
      by_cases hname : e.1 = entity <;> simp [hname, Option.guard]
    rw [hentities, hpass]
    exact ⟨.refl _, fun _ => rfl⟩
  · obtain ⟨hr, hentities, -⟩ := hkept
    have hkey : entity ∈ w.entities.keys := OrdMap.mem_keys_of_get? hget
    rw [hentities, OrdMap.toList_replace,
      List.filterMap_congr fun e he => passEntry_of_kept hget hr he, ← List.map_filterMap]
    refine ⟨(OrdMap.toList_rename_perm hkey _).map _, fun hfree => ?_⟩
    rw [OrdMap.toList_rename_of_free hkey]
    -- a name that is there and not the entity's own would be given away
    intro hmem
    by_contra hne
    exact Bool.false_ne_true ((hfree _ hmem).symm.trans ((givesAway_iff hget hr hne).2 rfl))

/-! ### All changes -/

/-- The entities at hand are `ts`, and the table of renames tells their former names. -/
structure Holds (w : Work) (ts : List Tracked) : Prop where
  entries : w.entities.toList.Perm (ts.map Tracked.entry)
  former : ∀ t ∈ ts, w.renames.getD t.name t.name = t.formerName

variable {ts : List Tracked}

theorem Holds.change (h : w.Holds ts) (plugin entity : String) (c : EntityChange) :
    (w.change plugin entity c).Holds (ts.filterMap (w.pass plugin entity c)) where
  entries := by
    refine (w.toList_change plugin entity c).1.trans ((h.entries.filterMap _).trans ?_)
    rw [List.filterMap_map, List.map_filterMap]
    exact .of_eq (List.filterMap_congr fun t _ => (map_entry_pass t).symm)
  former := by
    intro t' ht'
    obtain ⟨t, ht, hpass⟩ := List.mem_filterMap.1 ht'
    have hformer := h.former t ht
    have hget : w.entities.get? t.name = some t.entity :=
      OrdMap.get?_eq_some_iff.2 (h.entries.symm.subset (List.mem_map_of_mem ht))
    rcases pass_eq_some hpass with ⟨rfl, hr, rfl⟩ | ⟨hname, hkept, rfl⟩
    · rw [renames_change hget hr]
      show (ite _ _ _ : OrdMap String String).getD (c.nameFor t.name) (c.nameFor t.name) = ite _ _ _
      split
      · next hsame => rw [hsame, hformer]
      · rw [OrdMap.getD_insert, if_pos rfl]
    · -- the entity does not bear the name that the change gives, so its entry in the table stays
      rw [← hformer]
      rcases renames_change_cases plugin w entity c with hsame | ⟨d, hd, hr, hrenames⟩
      · rw [hsame]
      · have hne : t'.name ≠ c.nameFor entity := fun heq =>
          Bool.false_ne_true (hkept.symm.trans ((givesAway_iff hd hr hname).2 heq))
        rw [hrenames, OrdMap.getD_insert, if_neg hne]

theorem Holds.run (h : w.Holds ts) (plugin : String) (changes : List (String × EntityChange)) :
    (w.run plugin changes).Holds (ts.filterMap (w.follow plugin changes)) := by
  induction changes generalizing w ts with
  | nil =>
    have hfollow : w.follow plugin [] = some := rfl
    rw [hfollow, List.filterMap_some]
    exact h
  | cons e changes ih =>
    obtain ⟨entity, c⟩ := e
    have hrest := ih (h.change plugin entity c)
    rwa [List.filterMap_filterMap] at hrest

theorem follow_cons_eq_some {changes : List (String × EntityChange)} {t t' : Tracked}
    (h : w.follow plugin ((entity, c) :: changes) t = some t') :
    ∃ t₁, w.pass plugin entity c t = some t₁ ∧
      (w.change plugin entity c).follow plugin changes t₁ = some t' :=
  Option.bind_eq_some_iff.1 h

/-- Changes touch nothing of a definition but its fields. -/
theorem follow_entity {changes : List (String × EntityChange)} {t t' : Tracked}
    (h : w.follow plugin changes t = some t') :
    t'.entity = { t.entity with fields := t'.entity.fields } := by
  induction changes generalizing w t with
  | nil => cases h; rfl
  | cons e changes ih =>
    obtain ⟨t₁, hpass, hrest⟩ := follow_cons_eq_some h
    have hkept : t₁.entity = { t.entity with fields := t₁.entity.fields } := by
      rcases pass_eq_some hpass with ⟨-, -, rfl⟩ | ⟨-, -, rfl⟩ <;> rfl
    rw [ih hrest, hkept]

theorem follow_name {changes : List (String × EntityChange)} {t t' : Tracked}
    (h : w.follow plugin changes t = some t') :
    t'.name = t.name ∨ ∃ e ∈ changes, e.2.rename = some t'.name := by
  induction changes generalizing w t with
  | nil => cases h; exact .inl rfl
  | cons e changes ih =>
    obtain ⟨t₁, hpass, hrest⟩ := follow_cons_eq_some h
    rcases ih hrest with hname | ⟨e', he', hrename⟩
    · rcases pass_eq_some hpass with ⟨-, -, rfl⟩ | ⟨-, -, rfl⟩
      · by_cases hsame : e.2.nameFor t.name = t.name
        · exact .inl (hname.trans hsame)
        · refine .inr ⟨e, List.mem_cons_self, ?_⟩
          rw [hname]
          exact EntityChange.rename_of_nameFor_ne hsame
      · exact .inl hname
    · exact .inr ⟨e', List.mem_cons_of_mem _ he', hrename⟩

/-- The former name of an entity that was renamed is the key of the change that renamed it. -/
theorem follow_formerName {changes : List (String × EntityChange)} {t t' : Tracked}
    (h : w.follow plugin changes t = some t') (hname : t.formerName = t.name) :
    t'.formerName = t'.name ∨ t'.formerName ∈ changes.map Prod.fst := by
  suffices ∀ {w : Work} {t : Tracked} {keys : List String}, changes.map Prod.fst ⊆ keys →
      w.follow plugin changes t = some t' → t.formerName = t.name ∨ t.formerName ∈ keys →
      t'.formerName = t'.name ∨ t'.formerName ∈ keys from
    this (List.Subset.refl _) h (.inl hname)
  clear h hname
  intro w t keys hkeys h hformer
  induction changes generalizing w t with
  | nil => cases h; exact hformer
  | cons e changes ih =>
    obtain ⟨t₁, hpass, hrest⟩ := follow_cons_eq_some h
    rw [List.map_cons, List.cons_subset] at hkeys
    refine ih hkeys.2 hrest ?_
    rcases pass_eq_some hpass with ⟨hname, -, rfl⟩ | ⟨-, -, rfl⟩
    · by_cases hsame : e.2.nameFor t.name = t.name
      · have heq : (t.changed plugin e.2).formerName = t.formerName := if_pos hsame
        rw [heq]
        exact hformer.imp_left fun hformer => hformer.trans hsame.symm
      · have heq : (t.changed plugin e.2).formerName = t.name := if_neg hsame
        rw [heq, hname]
        exact .inr hkeys.1
    · exact hformer

/-- An entity is lost by a change that meets it and takes it away, or by one that gives its name to
another entity. -/
theorem follow_eq_none {changes : List (String × EntityChange)} {t : Tracked}
    (h : w.follow plugin changes t = none) :
    ∃ before entity c after t', changes = before ++ (entity, c) :: after ∧
      w.follow plugin before t = some t' ∧
      (t'.name = entity ∧ c.removes t'.entity = true ∨
        (w.run plugin before).givesAway entity c t'.name = true) := by
  induction changes generalizing w t with
  | nil => cases h
  | cons e changes ih =>
    obtain ⟨entity, c⟩ := e
    cases hpass : w.pass plugin entity c t with
    | none =>
      refine ⟨[], entity, c, changes, t, rfl, rfl, ?_⟩
      unfold pass Tracked.change at hpass
      split at hpass
      · next hname =>
        split at hpass
        · next hr => exact .inl ⟨hname, hr⟩
        · cases hpass
      · split at hpass
        · next hgives => exact .inr hgives
        · cases hpass
    | some t₁ =>
      rw [follow, hpass] at h
      obtain ⟨before, entity', c', after, t', rfl, hfollow, hlost⟩ := ih h
      refine ⟨(entity, c) :: before, entity', c', after, t', rfl, ?_, hlost⟩
      rw [follow, hpass]
      exact hfollow

end Work

end Resolve

end EntityRest
