import EntityRest.Proofs.Plugin.Follow
import Mathlib.Data.List.Pairwise

/-! # Declared entities in the resolved plugin

Every declared entity has at most one counterpart in the resolved plugin, and what is resolved is the
counterparts and the added entities (`entries_perm`). So no declared entity is lost but one that a change
takes away, which is not required, and one whose name goes to another entity; and the numbers add up
(`resolveWith_counterparts`). A rename to the name of another declared entity is such a case: that entity
is gone, though no change is keyed by it (`lost_by_rename`). -/

namespace EntityRest

namespace Resolve

/-- The entities as they are declared, before any change. -/
def Work.start (p : Plugin) : Work := ⟨p.entities, ∅, []⟩

variable {p : Plugin} {x : Extension}

theorem applyChanges_eq (p : Plugin) (x : Extension) :
    applyChanges p.id p.entities x = (Work.start p).run p.id x.entities.toList := rfl

/-- The names under which the extension adds entities. -/
def addedNames (p : Plugin) (x : Extension) : List String := x.addEntities.keys.map (addedName p.id)

/-- The entities that the extension adds, under these names. -/
def addedEntries (p : Plugin) (x : Extension) : List (String × PluginEntity) :=
  x.addEntities.toList.map fun e => (addedName p.id e.1, e.2)

theorem map_fst_addedEntries (p : Plugin) (x : Extension) :
    (addedEntries p x).map Prod.fst = addedNames p x := by
  simp only [addedEntries, addedNames, OrdMap.keys, List.map_map, Function.comp_def]

theorem fst_mem_addedNames {e : String × PluginEntity} (h : e ∈ addedEntries p x) : e.1 ∈ addedNames p x :=
  map_fst_addedEntries p x ▸ List.mem_map_of_mem h

theorem addedName_inj {plugin a b : String} (h : addedName plugin a = addedName plugin b) : a = b :=
  (String.append_right_inj _).1 h

theorem nodup_addedEntries (p : Plugin) (x : Extension) : ((addedEntries p x).map Prod.fst).Nodup := by
  rw [map_fst_addedEntries]
  exact x.addEntities.nodup_keys.map fun _ _ => addedName_inj

theorem withAdded_eq (p : Plugin) (x : Extension) (entities : OrdMap String PluginEntity) :
    withAdded p.id entities x = entities.insertMany (addedEntries p x) := by
  rw [OrdMap.insertMany, addedEntries, List.foldl_map]
  rfl

/-- The entities after all changes, with those that are added. -/
def finalEntities (p : Plugin) (x : Extension) : OrdMap String PluginEntity :=
  withAdded p.id (applyChanges p.id p.entities x).entities x

/-- What the declared entity `n` has become in the end, if it is not lost. -/
def counterpart? (p : Plugin) (x : Extension) (n : String) : Option Tracked :=
  (p.entities.get? n).bind fun d =>
    ((Work.start p).follow p.id x.entities.toList (.ofDeclared n d)).filter (·.name ∉ addedNames p x)

theorem counterpart?_eq_some_iff {n : String} {d : PluginEntity} {t : Tracked}
    (h : p.entities.get? n = some d) :
    counterpart? p x n = some t ↔
      (Work.start p).follow p.id x.entities.toList (.ofDeclared n d) = some t ∧ t.name ∉ addedNames p x := by
  rw [counterpart?, h, Option.bind_some, Option.filter_eq_some_iff, decide_eq_true_iff]

theorem mem_keys_of_counterpart? {n : String} {t : Tracked} (h : counterpart? p x n = some t) :
    n ∈ p.entities.keys := by
  obtain ⟨d, hd, -⟩ := Option.bind_eq_some_iff.1 h
  exact OrdMap.mem_keys_of_get? hd

/-- All declared entities, before any change. -/
def allDeclared (p : Plugin) : List Tracked := p.entities.toList.map fun e => .ofDeclared e.1 e.2

theorem toList_start (p : Plugin) : (Work.start p).entities.toList = (allDeclared p).map Tracked.entry := by
  rw [allDeclared, List.map_map]
  exact (List.map_id _).symm

theorem holds_start (p : Plugin) : (Work.start p).Holds (allDeclared p) where
  entries := .of_eq (toList_start p)
  former t ht := by
    obtain ⟨e, -, rfl⟩ := List.mem_map.1 ht
    rfl

theorem holds_applyChanges (p : Plugin) (x : Extension) :
    (applyChanges p.id p.entities x).Holds
      ((allDeclared p).filterMap ((Work.start p).follow p.id x.entities.toList)) :=
  (holds_start p).run p.id x.entities.toList

theorem filterMap_counterpart? (p : Plugin) (x : Extension) :
    p.entities.keys.filterMap (counterpart? p x) =
      ((allDeclared p).filterMap ((Work.start p).follow p.id x.entities.toList)).filter
        (·.name ∉ addedNames p x) := by
  rw [List.filter_filterMap, allDeclared, OrdMap.keys, List.filterMap_map, List.filterMap_map]
  refine List.filterMap_congr fun e he => ?_
  have hget : p.entities.get? e.1 = some e.2 := OrdMap.get?_eq_some_iff.2 he
  show counterpart? p x e.1 = _
  rw [counterpart?, hget]
  rfl

/-- The resolved entities are the counterparts of declared ones and the added ones. -/
theorem entries_perm (p : Plugin) (x : Extension) :
    (finalEntities p x).toList.Perm
      ((p.entities.keys.filterMap (counterpart? p x)).map Tracked.entry ++ addedEntries p x) := by
  have hperm := OrdMap.toList_insertMany_perm (applyChanges p.id p.entities x).entities
    (nodup_addedEntries p x)
  rw [map_fst_addedEntries] at hperm
  rw [finalEntities, withAdded_eq, filterMap_counterpart?]
  refine hperm.trans (List.Perm.append_right _ ?_)
  refine ((holds_applyChanges p x).entries.filter _).trans (.of_eq ?_)
  rw [List.filter_map]
  rfl

theorem get?_finalEntities {n : String} {t : Tracked} (h : counterpart? p x n = some t) :
    (finalEntities p x).get? t.name = some t.entity := by
  refine OrdMap.get?_eq_some_iff.2 ((entries_perm p x).symm.subset (List.mem_append_left _ ?_))
  exact List.mem_map_of_mem (List.mem_filterMap.2 ⟨n, mem_keys_of_counterpart? h, h⟩)

theorem nodup_names_counterparts (p : Plugin) (x : Extension) :
    ((p.entities.keys.filterMap (counterpart? p x)).map Tracked.name).Nodup := by
  have hkeys := ((entries_perm p x).map Prod.fst).nodup_iff.1 (finalEntities p x).nodup_keys
  rw [List.map_append, List.map_map] at hkeys
  exact (List.nodup_append.1 hkeys).1

theorem eq_of_nodup_filterMap {α β : Type} {f : α → Option β} {l : List α} (h : (l.filterMap f).Nodup)
    {a a' : α} (ha : a ∈ l) (ha' : a' ∈ l) {b : β} (hb : f a = some b) (hb' : f a' = some b) : a = a' := by
  let Apart (a a' : α) : Prop := ∀ b, f a = some b → ∀ b', f a' = some b' → b ≠ b'
  have : Std.Symm Apart := ⟨fun a a' h b hb b' hb' => (h b' hb' b hb).symm⟩
  have hapart : l.Pairwise Apart := List.pairwise_filterMap.1 h
  by_contra hne
  exact hapart.forall ha ha' hne b hb b hb' rfl

/-- The counterparts of different entities have different names. -/
theorem counterpart?_inj {n n' : String} {t t' : Tracked} (h : counterpart? p x n = some t)
    (h' : counterpart? p x n' = some t') (hname : t.name = t'.name) : n = n' := by
  have hnodup := nodup_names_counterparts p x
  rw [List.map_filterMap] at hnodup
  refine eq_of_nodup_filterMap hnodup (mem_keys_of_counterpart? h) (mem_keys_of_counterpart? h')
    (b := t'.name) ?_ ?_
  · rw [h, Option.map_some, hname]
  · rw [h', Option.map_some]

/-- What the entry of a name resolves to. -/
def resolved (p : Plugin) (x : Extension) (name : String) (d : PluginEntity) : ResolvedEntity :=
  resolveEntity p x (basePathOf p x) (applyChanges p.id p.entities x).renames name d

theorem entities_resolveWith (p : Plugin) (x : Extension) :
    (p.resolveWith x).1.entities = (finalEntities p x).toList.map fun e => (resolved p x e.1 e.2).entity := by
  show (((finalEntities p x).mapEntries (resolved p x)).values).map (·.entity) = _
  simp only [OrdMap.values, OrdMap.mapEntries, List.map_map, Function.comp_def]

theorem get?_entityMeta_resolveWith (p : Plugin) (x : Extension) (name : String) :
    (p.resolveWith x).1.entityMeta.get? name =
      ((finalEntities p x).get? name).map fun d => (resolved p x name d).info := by
  show (((finalEntities p x).mapEntries (resolved p x)).mapEntries fun _ r => r.info).get? name = _
  rw [OrdMap.get?_mapEntries, OrdMap.get?_mapEntries, Option.map_map]
  rfl

/-! ### Facts about routes -/

/-- The change by which the routing facts of an entity go. -/
def changeOf (x : Extension) (t : Tracked) : Option EntityChange := x.entities.get? t.formerName

def tagOf (p : Plugin) (x : Extension) (t : Tracked) : PluginTag where
  id := p.id
  basePath := basePathOf p x
  routePath := (changeOf x t).bind (·.routePath) <|> t.entity.routePath
  isInternal := t.entity.isInternal || (changeOf x t).bind (·.isInternal) == some true

def entityOf (p : Plugin) (x : Extension) (t : Tracked) : Entity :=
  t.entity.toEntity t.name (some (tagOf p x t))

def metaOf (p : Plugin) (x : Extension) (t : Tracked) : EntityMeta where
  declaredName := t.formerName
  pluginId := p.id
  basePath := (tagOf p x t).basePath
  routePath := (tagOf p x t).routePath
  isInternal := (tagOf p x t).isInternal
  routeConfig := x.entityRoutes.get? t.formerName <|> x.entityRoutes.get? t.name

/-- An entry whose former name the table of renames tells is resolved by the change of that name. -/
theorem resolved_eq {t : Tracked}
    (hformer : (applyChanges p.id p.entities x).renames.getD t.name t.name = t.formerName)
    (hkey : t.formerName = t.name ∨ t.formerName ∈ x.entities.keys) :
    (resolved p x t.name t.entity).entity = entityOf p x t ∧
      (resolved p x t.name t.entity).info = metaOf p x t := by
  have hchange : (x.entities.get? t.formerName <|> x.entities.get? t.name) = changeOf x t := by
    unfold changeOf
    cases hget : x.entities.get? t.formerName with
    | some c => rfl
    | none =>
      rcases hkey with hname | hkey
      · rw [← hname, hget]; rfl
      · exact absurd hkey (OrdMap.get?_eq_none_iff.1 hget)
  unfold resolved resolveEntity
  rw [hformer]
  dsimp only
  rw [hchange]
  exact ⟨rfl, rfl⟩

theorem resolved_counterpart {n : String} {t : Tracked} (h : counterpart? p x n = some t) :
    (resolved p x t.name t.entity).entity = entityOf p x t ∧
      (resolved p x t.name t.entity).info = metaOf p x t := by
  obtain ⟨d, hd, -⟩ := Option.bind_eq_some_iff.1 h
  obtain ⟨hfollow, -⟩ := (counterpart?_eq_some_iff hd).1 h
  have hmem : Tracked.ofDeclared n d ∈ allDeclared p :=
    List.mem_map.2 ⟨(n, d), OrdMap.get?_eq_some_iff.1 hd, rfl⟩
  exact resolved_eq
    ((holds_applyChanges p x).former t (List.mem_filterMap.2 ⟨_, hmem, hfollow⟩))
    (Work.follow_formerName hfollow rfl)

theorem mem_entities_resolveWith {n : String} {t : Tracked} (h : counterpart? p x n = some t) :
    entityOf p x t ∈ (p.resolveWith x).1.entities := by
  rw [entities_resolveWith, ← (resolved_counterpart h).1]
  exact List.mem_map.2 ⟨_, OrdMap.get?_eq_some_iff.1 (get?_finalEntities h), rfl⟩

theorem get?_entityMeta_counterpart {n : String} {t : Tracked} (h : counterpart? p x n = some t) :
    (p.resolveWith x).1.entityMeta.get? t.name = some (metaOf p x t) := by
  rw [get?_entityMeta_resolveWith, get?_finalEntities h, Option.map_some, (resolved_counterpart h).2]

/-! ### Lost entities -/

/-- How the declared entity `n` gets lost. -/
inductive Lost (p : Plugin) (x : Extension) (n : String) (d : PluginEntity) : Prop where
  /-- A change that meets it takes it away, which none does to a required entity. -/
  | removed {before after : List (String × EntityChange)} {c : EntityChange} {t : Tracked}
      (hx : x.entities.toList = before ++ (t.name, c) :: after)
      (hfollow : (Work.start p).follow p.id before (.ofDeclared n d) = some t)
      (hremove : c.remove = true) (hrequired : d.required = false) : Lost p x n d
  /-- A change renames another entity to the name that it has then. -/
  | replaced {before after : List (String × EntityChange)} {other : String} {c : EntityChange}
      {t : Tracked} (hx : x.entities.toList = before ++ (other, c) :: after)
      (hfollow : (Work.start p).follow p.id before (.ofDeclared n d) = some t)
      (hother : other ≠ t.name) (hrename : c.rename = some t.name)
      (hthere : other ∈ ((Work.start p).run p.id before).entities.keys) : Lost p x n d
  /-- An added entity comes under the name that it has in the end. -/
  | covered {t : Tracked}
      (hfollow : (Work.start p).follow p.id x.entities.toList (.ofDeclared n d) = some t)
      (hadded : t.name ∈ addedNames p x) : Lost p x n d

theorem lost_of_counterpart?_eq_none {n : String} {d : PluginEntity} (h : p.entities.get? n = some d)
    (hnone : counterpart? p x n = none) : Lost p x n d := by
  cases hfollow : (Work.start p).follow p.id x.entities.toList (.ofDeclared n d) with
  | some t =>
    refine .covered hfollow (Classical.byContradiction fun hadded => ?_)
    have hsome := (counterpart?_eq_some_iff h).2 ⟨hfollow, hadded⟩
    rw [hnone] at hsome; cases hsome
  | none =>
    obtain ⟨before, entity, c, after, t, hx, hbefore, ⟨rfl, hr⟩ | hgives⟩ := Work.follow_eq_none hfollow
    · rw [EntityChange.removes, Bool.and_eq_true, Bool.not_eq_true'] at hr
      have hrequired : t.entity.required = d.required := by rw [Work.follow_entity hbefore]; rfl
      exact .removed hx hbefore hr.1 (hrequired ▸ hr.2)
    · obtain ⟨hother, hrename, d', hd', -⟩ := Work.givesAway_eq_true_iff.1 hgives
      exact .replaced hx hbefore hother hrename (OrdMap.mem_keys_of_get? hd')

theorem length_filterMap_add {α β : Type} (f : α → Option β) (l : List α) :
    (l.filterMap f).length + (l.filter fun a => (f a).isNone).length = l.length := by
  have hnone : (l.filter fun a => (f a).isNone) = l.filter fun a => ¬(f a).isSome = true :=
    List.filter_congr fun a _ => by cases f a <;> rfl
  rw [hnone, List.length_filterMap_eq_countP, ← List.countP_eq_length_filter,
    ← List.length_eq_countP_add_countP]

end Resolve

open Resolve

/-- A declared entity is resolved under its own name or one that a change gave to it, with its own
definition, of which changes touch the fields only; or it is lost. Counterparts are not shared, and what
is resolved are the declared entities that are not lost and those that the extension adds. -/
theorem Plugin.resolveWith_counterparts (p : Plugin) (x : Extension) :
    let r := (p.resolveWith x).1
    (∀ n d, p.entities.get? n = some d →
      match counterpart? p x n with
      | some t =>
        entityOf p x t ∈ r.entities ∧ r.entityMeta.get? t.name = some (metaOf p x t) ∧
          t.entity = { d with fields := t.entity.fields } ∧
          (t.name = n ∨ ∃ e ∈ x.entities.toList, e.2.rename = some t.name)
      | none => Lost p x n d) ∧
    (∀ n n' t t', counterpart? p x n = some t → counterpart? p x n' = some t' → t.name = t'.name →
      n = n') ∧
    r.entities.length + (p.entities.keys.filter fun n => (counterpart? p x n).isNone).length =
      p.entities.size + x.addEntities.size := by
  intro r
  refine ⟨fun n d hd => ?_, fun n n' t t' h h' hname => counterpart?_inj h h' hname, ?_⟩
  · cases ht : counterpart? p x n with
    | none => exact lost_of_counterpart?_eq_none hd ht
    | some t =>
      obtain ⟨hfollow, -⟩ := (counterpart?_eq_some_iff hd).1 ht
      exact ⟨mem_entities_resolveWith ht, get?_entityMeta_counterpart ht, Work.follow_entity hfollow,
        Work.follow_name hfollow⟩
  · have hlength := (entries_perm p x).length_eq
    have hsplit := length_filterMap_add (counterpart? p x) p.entities.keys
    rw [List.length_append, List.length_map, addedEntries, List.length_map] at hlength
    rw [OrdMap.keys, List.length_map] at hsplit
    have hentities : r.entities.length = (finalEntities p x).toList.length := by
      show (p.resolveWith x).1.entities.length = _
      rw [entities_resolveWith, List.length_map]
    show _ = p.entities.toList.length + x.addEntities.toList.length
    rw [OrdMap.keys] at hlength ⊢
    omega

/-- Users and their sessions. -/
def Plugin.accounts : Plugin :=
  { Plugin.ofId "auth" "Accounts" "1.0.0" with
    entities := OrdMap.ofList
      [("user", { fields := OrdMap.ofList [("email", FieldDef.ofType .string)] }),
        ("session", { fields := OrdMap.ofList [("token", FieldDef.ofType .string)] })] }

/-- Users become sessions, and the declared sessions are gone: no change is keyed by them, none removes
anything, and yet one entity is resolved of two. -/
theorem Plugin.lost_by_rename :
    let x := ({} : Extension).renameEntity "user" "session"
    let r := (Plugin.accounts.resolveWith x).1
    Plugin.accounts.entities.keys = ["user", "session"] ∧ x.entities.get? "session" = none ∧
      (∀ e ∈ x.entities.toList, e.2.remove = false) ∧ x.addEntities.size = 0 ∧
      (r.entities.map fun e => (e.name, e.fields.keys)) = [("session", ["email"])] := by
  decide +kernel

end EntityRest
