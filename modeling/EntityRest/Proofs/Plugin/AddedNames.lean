import EntityRest.Proofs.Plugin.Simultaneous
import EntityRest.Proofs.Plugin.Tags
import EntityRest.Proofs.Text.Items

/-! # The names of added entities

An extension adds an entity under the id of its plugin, an underscore and the name. Where ids or names have
underscores themselves, such a name says less than the two: it is also made of a longer id and a shorter name
(`addedName_eq_iff`). What is added may therefore meet a declared entity, or one that another plugin adds, and take its
place. `AddedClash` lists the ways in which this happens, and `Plugin.merge_added` says that added entities are apart
from all others just if it does not, that names without underscores are enough for it, and that nothing is lost
then. -/

namespace EntityRest

namespace Resolve

/-! ### Names -/

theorem toList_addedName (plugin entity : String) :
    (addedName plugin entity).toList = plugin.toList ++ '_' :: entity.toList := by
  rw [addedName, String.toList_append, String.toList_append, List.append_assoc]
  rfl

theorem addedName_assoc (a s n : String) : addedName (addedName a s) n = addedName a (addedName s n) := by
  unfold addedName
  simp only [String.append_assoc]

/-- Added names are the same also where one id goes on to a part of the other name. -/
theorem addedName_eq_iff {a b m n : String} : addedName a m = addedName b n ↔
    a = b ∧ m = n ∨ (∃ s, b = addedName a s ∧ m = addedName s n) ∨ ∃ s, a = addedName b s ∧ n = addedName s m := by
  have hsplit {a b m n : String} :
      (∃ s, b.toList = a.toList ++ '_' :: s ∧ m.toList = s ++ '_' :: n.toList) ↔
        ∃ s, b = addedName a s ∧ m = addedName s n := by
    constructor
    · rintro ⟨s, hb, hm⟩
      refine ⟨String.ofList s, String.toList_inj.1 ?_, String.toList_inj.1 ?_⟩
      · rw [toList_addedName, String.toList_ofList, hb]
      · rw [toList_addedName, String.toList_ofList, hm]
    · rintro ⟨s, rfl, rfl⟩
      exact ⟨s.toList, toList_addedName _ _, toList_addedName _ _⟩
  rw [← String.toList_inj, toList_addedName, toList_addedName, Text.append_cons_eq_iff, String.toList_inj,
    String.toList_inj, hsplit, hsplit]

theorem addedName_ne_self (a s : String) : addedName a s ≠ a := by
  intro h
  have hlength := congrArg String.length h
  rw [← String.length_toList, toList_addedName, List.length_append, List.length_cons, String.length_toList] at hlength
  omega

theorem not_mem_of_isEntityName {n : String} (h : isEntityName n = true) : '_' ∉ n.toList := by
  unfold isEntityName at h
  split at h
  · next c cs heq =>
    rw [Bool.and_eq_true, List.all_eq_true] at h
    rw [heq, List.mem_cons, not_or]
    refine ⟨?_, fun hmem => absurd (h.2 '_' hmem) (by decide)⟩
    rintro rfl
    exact absurd h.1 (by decide)
  · cases h

theorem isEntityName_addedName (plugin entity : String) : isEntityName (addedName plugin entity) = false := by
  refine Bool.eq_false_iff.2 fun h => not_mem_of_isEntityName h ?_
  rw [toList_addedName]
  exact List.mem_append_right _ List.mem_cons_self

end Resolve

/-! ### Extensions that rename nothing -/

/-- No change of the extension gives an entity a new name. -/
def Extension.KeepsNames (x : Extension) : Prop := ∀ e ∈ x.entities.toList, e.2.rename = none

instance (x : Extension) : Decidable x.KeepsNames :=
  inferInstanceAs (Decidable (∀ e ∈ x.entities.toList, e.2.rename = none))

namespace Resolve

variable {p : Plugin} {x : Extension} {name : String}

theorem names_resolveWith (p : Plugin) (x : Extension) :
    (p.resolveWith x).1.entities.map (·.name) = (finalEntities p x).keys := by
  rw [entities_resolveWith, List.map_map]
  rfl

theorem mem_keys_finalEntities : name ∈ (finalEntities p x).keys ↔
    name ∈ addedNames p x ∨ name ∈ (applyChanges p.id p.entities x).entities.keys := by
  rw [finalEntities, withAdded_eq, OrdMap.mem_keys_insertMany, map_fst_addedEntries]

section KeepsNames

variable (h : x.KeepsNames)

include h

theorem newNames_of_keepsNames : newNames x.entities.toList = [] := List.filterMap_eq_nil_iff.2 h

theorem freshChanges_of_keepsNames : FreshChanges x.entities.toList where
  keys := x.entities.nodup_keys
  unkeyed := by rw [newNames_of_keepsNames h]; nofun
  distinct := by rw [newNames_of_keepsNames h]; exact List.nodup_nil

theorem newName_of_keepsNames (n : String) : newName x n = n := by
  unfold newName
  cases hget : x.entities.get? n with
  | none => rfl
  | some c => rw [Option.bind_some, h (n, c) (OrdMap.get?_eq_some_iff.1 hget), Option.getD_none]

theorem mem_survivors_of_keepsNames {t : Tracked} (ht : t ∈ survivors p x) :
    ∃ d, p.entities.get? t.name = some d ∧ removes x t.name d = false := by
  obtain ⟨⟨n, d⟩, he, hsurvivor⟩ := List.mem_filterMap.1 ht
  unfold survivor? at hsurvivor
  split at hsurvivor
  · cases hsurvivor
  · next hkept =>
    cases hsurvivor
    dsimp only
    rw [newName_of_keepsNames h]
    exact ⟨d, OrdMap.get?_eq_some_iff.2 he, Bool.eq_false_iff.2 hkept⟩

theorem mem_keys_applyChanges : name ∈ (applyChanges p.id p.entities x).entities.keys ↔
    ∃ d, p.entities.get? name = some d ∧ removes x name d = false := by
  have hlist := toList_applyChanges (p := p) (freshChanges_of_keepsNames h)
    (by rw [newNames_of_keepsNames h]; nofun)
  rw [OrdMap.keys, hlist, List.map_map, List.mem_map]
  constructor
  · rintro ⟨t, ht, rfl⟩
    exact mem_survivors_of_keepsNames h ht
  · rintro ⟨d, hd, hkept⟩
    refine ⟨⟨newName x name, name, newDefinition p x name d⟩, List.mem_filterMap.2
      ⟨(name, d), OrdMap.get?_eq_some_iff.1 hd, if_neg (Bool.eq_false_iff.1 hkept)⟩, newName_of_keepsNames h name⟩

theorem mem_names_resolveWith : name ∈ (p.resolveWith x).1.entities.map (·.name) ↔
    name ∈ addedNames p x ∨ ∃ d, p.entities.get? name = some d ∧ removes x name d = false := by
  rw [names_resolveWith, mem_keys_finalEntities, mem_keys_applyChanges h]

theorem freshNames_of_keepsNames (hdeclared : ∀ name ∈ addedNames p x, name ∉ p.entities.keys) :
    FreshNames p x where
  undeclared := by rw [newNames_of_keepsNames h]; nofun
  unkeyed := (freshChanges_of_keepsNames h).unkeyed
  distinct := (freshChanges_of_keepsNames h).distinct
  unadded t ht hadded := by
    obtain ⟨d, hd, -⟩ := mem_survivors_of_keepsNames h ht
    exact hdeclared t.name hadded (OrdMap.mem_keys_of_get? hd)

end KeepsNames

end Resolve

open Resolve

/-! ### Plugins with and without the added entities -/

def Plugin.withoutAdded (p : Plugin) : Plugin :=
  { p with extension := { p.extension with addEntities := ∅ } }

def ResolvedPlugin.entityNamed (r : ResolvedPlugin) (name : String) : Option Entity :=
  (r.entities.map fun e => (e.name, e)).lookup name

namespace Plugin

variable {p : Plugin} {plugins : List Plugin} {name : String}

theorem entityNamed_resolveWith (p : Plugin) (x : Extension) (name : String) :
    (p.resolveWith x).1.entityNamed name =
      ((finalEntities p x).get? name).map fun d => (resolved p x name d).entity := by
  rw [ResolvedPlugin.entityNamed, entities_resolveWith, List.map_map]
  exact OrdMap.lookup_map_snd (fun name d => (resolved p x name d).entity) _ name

theorem entityNamed_of_not_mem (h : name ∉ p.resolve.1.entities.map (·.name)) :
    p.resolve.1.entityNamed name = none ∧ p.resolve.1.entityMeta.get? name = none := by
  rw [resolve, names_resolveWith] at h
  rw [resolve, entityNamed_resolveWith, get?_entityMeta_resolveWith, OrdMap.get?_eq_none_iff.2 h]
  exact ⟨rfl, rfl⟩

/-- Of other names a plugin says the same with and without the added entities. -/
theorem entityNamed_withoutAdded (hname : name ∉ addedNames p p.extension) :
    p.resolve.1.entityNamed name = p.withoutAdded.resolve.1.entityNamed name ∧
      p.resolve.1.entityMeta.get? name = p.withoutAdded.resolve.1.entityMeta.get? name := by
  have hget : (finalEntities p p.extension).get? name =
      (finalEntities p.withoutAdded p.withoutAdded.extension).get? name := by
    rw [finalEntities, withAdded_eq, OrdMap.get?_insertMany_of_not_mem (by rwa [map_fst_addedEntries])]
    rfl
  rw [resolve, resolve, entityNamed_resolveWith, entityNamed_resolveWith, get?_entityMeta_resolveWith,
    get?_entityMeta_resolveWith, hget]
  exact ⟨rfl, rfl⟩

theorem entityNamed_added (hkeeps : p.extension.KeepsNames)
    (hdeclared : ∀ name ∈ addedNames p p.extension, name ∉ p.entities.keys) {e : String × PluginEntity}
    (he : e ∈ addedEntries p p.extension) :
    p.resolve.1.entityNamed e.1 = some (entityOf p p.extension (.ofDeclared e.1 e.2)) ∧
      p.resolve.1.entityMeta.get? e.1 = some (metaOf p p.extension (.ofDeclared e.1 e.2)) := by
  have hget : (finalEntities p p.extension).get? e.1 = some e.2 := by
    have hnodup := nodup_addedEntries p p.extension
    rw [finalEntities, withAdded_eq, OrdMap.get?_insertMany hnodup, (OrdMap.lookup_eq_some_iff hnodup).2 he]
    rfl
  obtain ⟨hentity, hmeta⟩ := resolved_added (freshNames_of_keepsNames hkeeps hdeclared) he
  rw [resolve, entityNamed_resolveWith, get?_entityMeta_resolveWith, hget, ← hentity, ← hmeta]
  exact ⟨rfl, rfl⟩

/-- Where they are not declared, the added entities follow those that the plugin has without them. -/
theorem entities_resolve (hkeeps : p.extension.KeepsNames)
    (hdeclared : ∀ name ∈ addedNames p p.extension, name ∉ p.entities.keys) :
    p.resolve.1.entities = p.withoutAdded.resolve.1.entities ++
      (addedEntries p p.extension).map fun e => entityOf p p.extension (.ofDeclared e.1 e.2) := by
  have hfresh := freshNames_of_keepsNames hkeeps hdeclared
  have hbare := freshNames_of_keepsNames (p := p.withoutAdded) (x := p.withoutAdded.extension) hkeeps nofun
  rw [resolve, resolve, entities_of_fresh hfresh, entities_of_fresh hbare, simultaneous, simultaneous, List.map_append,
    List.map_append, List.map_map]
  have hnone : addedEntries p.withoutAdded p.withoutAdded.extension = [] := rfl
  rw [hnone, List.map_nil, List.map_nil, List.append_nil]
  rfl

end Plugin

/-! ### Merging -/

theorem findSome?_congr {α β : Type} {f g : α → Option β} {l : List α} (h : ∀ a ∈ l, f a = g a) :
    l.findSome? f = l.findSome? g := by
  induction l with
  | nil => rfl
  | cons a l ih =>
    obtain ⟨ha, hl⟩ := List.forall_mem_cons.1 h
    rw [List.findSome?_cons, List.findSome?_cons, ha, ih hl]

theorem findSome?_of_unique {α β : Type} {f : α → Option β} {l : List α} {a : α} {b : β} (ha : a ∈ l)
    (hb : f a = some b) (h : ∀ a' ∈ l, a' ≠ a → f a' = none) : l.findSome? f = some b := by
  have hsome : (l.findSome? f).isSome := List.findSome?_isSome_iff.2 ⟨a, ha, by rw [hb]; rfl⟩
  obtain ⟨b', hb'⟩ := Option.isSome_iff_exists.1 hsome
  obtain ⟨a', ha', heq⟩ := List.exists_of_findSome?_eq_some hb'
  obtain rfl : a' = a := by
    by_contra hne
    rw [h a' ha' hne] at heq
    cases heq
  rw [hb', ← heq, hb]

/-- A name is looked up in the last plugin that has it. -/
theorem get?_mergePlugins (plugins : List Plugin) {f : Plugin → ResolvedPlugin} (hf : ∀ p, (f p).Coherent)
    (name : String) :
    (mergePlugins (plugins.map f)).entities.get? name =
        plugins.reverse.findSome? (fun p => (f p).entityNamed name) ∧
      (mergePlugins (plugins.map f)).entityMeta.get? name =
        plugins.reverse.findSome? fun p => (f p).entityMeta.get? name := by
  have hnodup : ∀ p ∈ plugins, (((f p).entities.map fun e => (e.name, e)).map Prod.fst).Nodup := by
    intro p _
    rw [List.map_map]
    exact (hf p).names ▸ (f p).entityMeta.nodup_keys
  unfold mergePlugins
  dsimp only
  rw [List.foldl_map, List.foldl_map]
  exact ⟨OrdMap.get?_foldl_insertMany hnodup name,
    OrdMap.get?_foldl_insertMany (fun p _ => (f p).entityMeta.nodup_keys) name⟩

/-! ### Added entities among others -/

/-- The name of an added entity is not declared by its plugin, and no entity of another plugin resolves to it. -/
def AddedApart (plugins : List Plugin) : Prop :=
  ∀ p ∈ plugins, ∀ name ∈ addedNames p p.extension, name ∉ p.entities.keys ∧
    ∀ q ∈ plugins, q.id ≠ p.id → name ∉ q.resolve.1.entities.map (·.name)

/-- How an added entity comes under the name of another one. -/
inductive AddedClash (plugins : List Plugin) : Prop
  /-- The plugin declares an entity of that name itself. -/
  | own {p : Plugin} {m : String} (hp : p ∈ plugins) (hm : m ∈ p.extension.addEntities.keys)
      (hdeclared : addedName p.id m ∈ p.entities.keys) : AddedClash plugins
  /-- Another plugin declares one, and its extension does not take it away. -/
  | declared {p q : Plugin} {m : String} {d : PluginEntity} (hp : p ∈ plugins) (hq : q ∈ plugins)
      (hm : m ∈ p.extension.addEntities.keys) (hne : q.id ≠ p.id)
      (hd : q.entities.get? (addedName p.id m) = some d)
      (hkept : removes q.extension (addedName p.id m) d = false) : AddedClash plugins
  /-- Another plugin, whose id goes on to a part of the name, adds one under what is left of the name. -/
  | added {p q : Plugin} {s n : String} (hp : p ∈ plugins) (hq : q ∈ plugins) (hid : q.id = addedName p.id s)
      (hm : addedName s n ∈ p.extension.addEntities.keys) (hn : n ∈ q.extension.addEntities.keys) :
      AddedClash plugins

section Apart

variable {plugins : List Plugin}

theorem AddedApart.not_clash (h : AddedApart plugins) (hkeeps : ∀ p ∈ plugins, p.extension.KeepsNames) :
    ¬AddedClash plugins := by
  rintro (⟨hp, hm, hdeclared⟩ | ⟨hp, hq, hm, hne, hd, hkept⟩ | ⟨hp, hq, hid, hm, hn⟩)
  · exact (h _ hp _ (List.mem_map_of_mem hm)).1 hdeclared
  · exact (h _ hp _ (List.mem_map_of_mem hm)).2 _ hq hne
      ((mem_names_resolveWith (hkeeps _ hq)).2 (.inr ⟨_, hd, hkept⟩))
  · refine (h _ hp _ (List.mem_map_of_mem hm)).2 _ hq (hid ▸ addedName_ne_self _ _)
      ((mem_names_resolveWith (hkeeps _ hq)).2 (.inl ?_))
    rw [← addedName_assoc, ← hid]
    exact List.mem_map_of_mem hn

theorem addedApart_of_not_clash (h : ¬AddedClash plugins) (hkeeps : ∀ p ∈ plugins, p.extension.KeepsNames) :
    AddedApart plugins := by
  intro p hp name hname
  obtain ⟨m, hm, rfl⟩ := List.mem_map.1 hname
  refine ⟨fun hdeclared => h (.own hp hm hdeclared), fun q hq hne hresolved => h ?_⟩
  obtain hadded | ⟨d, hd, hkept⟩ := (mem_names_resolveWith (hkeeps q hq)).1 hresolved
  · obtain ⟨n, hn, heq⟩ := List.mem_map.1 hadded
    obtain ⟨hid, -⟩ | ⟨s, hid, rfl⟩ | ⟨s, hid, rfl⟩ := addedName_eq_iff.1 heq
    · exact absurd hid hne
    · exact .added hq hp hid hn hm
    · exact .added hp hq hid hm hn
  · exact .declared hp hq hm hne hd hkept

/-- Names that follow the rule for entities have no underscores, and added names do. -/
theorem not_clash_of_isEntityName
    (h : ∀ p ∈ plugins, ∀ n ∈ p.entities.keys ++ p.extension.addEntities.keys, isEntityName n = true) :
    ¬AddedClash plugins := by
  have hno : ∀ {p : Plugin} {a n : String}, p ∈ plugins →
      ¬(addedName a n ∈ p.entities.keys ∨ addedName a n ∈ p.extension.addEntities.keys) := fun hp hmem =>
    Bool.false_ne_true ((isEntityName_addedName _ _).symm.trans (h _ hp _ (List.mem_append.2 hmem)))
  rintro (⟨hp, hm, hdeclared⟩ | ⟨hp, hq, hm, hne, hd, hkept⟩ | ⟨hp, hq, hid, hm, hn⟩)
  · exact hno hp (.inl hdeclared)
  · exact hno hq (.inl (OrdMap.mem_keys_of_get? hd))
  · exact hno hp (.inr hm)

theorem AddedApart.not_mem_withoutAdded (h : AddedApart plugins) (hkeeps : ∀ p ∈ plugins, p.extension.KeepsNames)
    {p q : Plugin} (hp : p ∈ plugins) (hq : q ∈ plugins) (hids : q.id = p.id → q = p) {name : String}
    (hname : name ∈ addedNames p p.extension) :
    name ∉ q.withoutAdded.resolve.1.entities.map (·.name) := by
  intro hmem
  have hkeeps' : q.withoutAdded.extension.KeepsNames := hkeeps q hq
  obtain hadded | ⟨d, hd, hkept⟩ := (mem_names_resolveWith hkeeps').1 hmem
  · cases hadded
  · obtain ⟨hown, hothers⟩ := h p hp name hname
    by_cases hid : q.id = p.id
    · rw [hids hid] at hd
      exact hown (OrdMap.mem_keys_of_get? hd)
    · exact hothers q hq hid ((mem_names_resolveWith (hkeeps q hq)).2 (.inr ⟨d, hd, hkept⟩))

theorem AddedApart.get?_bare (h : AddedApart plugins) (hids : (plugins.map (·.id)).Nodup)
    (hkeeps : ∀ p ∈ plugins, p.extension.KeepsNames) {p : Plugin} (hp : p ∈ plugins) {name : String}
    (hname : name ∈ addedNames p p.extension) :
    let bare := mergePlugins (plugins.map (·.withoutAdded.resolve.1))
    bare.entities.get? name = none ∧ bare.entityMeta.get? name = none := by
  obtain ⟨hentities, hmeta⟩ := get?_mergePlugins plugins
    (fun p => p.withoutAdded.coherent_resolveWith p.withoutAdded.extension) name
  have habsent : ∀ q ∈ plugins.reverse, q.withoutAdded.resolve.1.entityNamed name = none ∧
      q.withoutAdded.resolve.1.entityMeta.get? name = none := fun q hq =>
    have hq := List.mem_reverse.1 hq
    Plugin.entityNamed_of_not_mem
      (h.not_mem_withoutAdded hkeeps hp hq (fun hid => List.inj_on_of_nodup_map hids hq hp hid) hname)
  exact ⟨hentities.trans (List.findSome?_eq_none_iff.2 fun q hq => (habsent q hq).1),
    hmeta.trans (List.findSome?_eq_none_iff.2 fun q hq => (habsent q hq).2)⟩

theorem AddedApart.get?_merged (h : AddedApart plugins) (hids : (plugins.map (·.id)).Nodup)
    (hkeeps : ∀ p ∈ plugins, p.extension.KeepsNames) {p : Plugin} (hp : p ∈ plugins)
    {e : String × PluginEntity} (he : e ∈ addedEntries p p.extension) :
    let merged := mergePlugins (plugins.map (·.resolve.1))
    merged.entities.get? e.1 = some (entityOf p p.extension (.ofDeclared e.1 e.2)) ∧
      merged.entityMeta.get? e.1 = some (metaOf p p.extension (.ofDeclared e.1 e.2)) := by
  have hname := fst_mem_addedNames he
  obtain ⟨hentities, hmeta⟩ := get?_mergePlugins plugins (fun p => p.coherent_resolveWith p.extension) e.1
  obtain ⟨hentity, hinfo⟩ := Plugin.entityNamed_added (hkeeps p hp) (fun name hname => (h p hp name hname).1) he
  have hothers : ∀ q ∈ plugins.reverse, q ≠ p → q.resolve.1.entityNamed e.1 = none ∧
      q.resolve.1.entityMeta.get? e.1 = none := fun q hq hne =>
    have hq := List.mem_reverse.1 hq
    Plugin.entityNamed_of_not_mem
      ((h p hp e.1 hname).2 q hq fun hid => hne (List.inj_on_of_nodup_map hids hq hp hid))
  have hp := List.mem_reverse.2 hp
  exact ⟨hentities.trans (findSome?_of_unique hp hentity fun q hq hne => (hothers q hq hne).1),
    hmeta.trans (findSome?_of_unique hp hinfo fun q hq hne => (hothers q hq hne).2)⟩

theorem get?_merged_of_not_added {name : String} (hname : ∀ p ∈ plugins, name ∉ addedNames p p.extension) :
    let merged := mergePlugins (plugins.map (·.resolve.1))
    let bare := mergePlugins (plugins.map (·.withoutAdded.resolve.1))
    merged.entities.get? name = bare.entities.get? name ∧
      merged.entityMeta.get? name = bare.entityMeta.get? name := by
  intro merged bare
  obtain ⟨hentities, hmeta⟩ := get?_mergePlugins plugins (fun p => p.coherent_resolveWith p.extension) name
  obtain ⟨hentities', hmeta'⟩ := get?_mergePlugins plugins
    (fun p => p.withoutAdded.coherent_resolveWith p.withoutAdded.extension) name
  have hsame : ∀ p ∈ plugins.reverse, p.resolve.1.entityNamed name = p.withoutAdded.resolve.1.entityNamed name ∧
      p.resolve.1.entityMeta.get? name = p.withoutAdded.resolve.1.entityMeta.get? name := fun p hp =>
    Plugin.entityNamed_withoutAdded (hname p (List.mem_reverse.1 hp))
  constructor
  · exact hentities.trans ((findSome?_congr fun p hp => (hsame p hp).1).trans hentities'.symm)
  · exact hmeta.trans ((findSome?_congr fun p hp => (hsame p hp).2).trans hmeta'.symm)

end Apart

/-- Added entities are apart from all others just if there is no clash, and there is none among names that follow the
rule for entities. Then they come behind what their plugins resolve to without them, and merging keeps all of them in
addition to what it keeps without them. -/
theorem Plugin.merge_added {plugins : List Plugin} (hids : (plugins.map (·.id)).Nodup)
    (hkeeps : ∀ p ∈ plugins, p.extension.KeepsNames) :
    (AddedApart plugins ↔ ¬AddedClash plugins) ∧
    ((∀ p ∈ plugins, ∀ n ∈ p.entities.keys ++ p.extension.addEntities.keys, isEntityName n = true) →
      AddedApart plugins) ∧
    (AddedApart plugins →
      (∀ p ∈ plugins, p.resolve.1.entities = p.withoutAdded.resolve.1.entities ++
        (addedEntries p p.extension).map fun e => entityOf p p.extension (.ofDeclared e.1 e.2)) ∧
      let merged := mergePlugins (plugins.map (·.resolve.1))
      let bare := mergePlugins (plugins.map (·.withoutAdded.resolve.1))
      (∀ p ∈ plugins, ∀ e ∈ addedEntries p p.extension,
        bare.entities.get? e.1 = none ∧ bare.entityMeta.get? e.1 = none ∧
        merged.entities.get? e.1 = some (entityOf p p.extension (.ofDeclared e.1 e.2)) ∧
        merged.entityMeta.get? e.1 = some (metaOf p p.extension (.ofDeclared e.1 e.2))) ∧
      ∀ name, (∀ p ∈ plugins, name ∉ addedNames p p.extension) →
        merged.entities.get? name = bare.entities.get? name ∧
        merged.entityMeta.get? name = bare.entityMeta.get? name) := by
  refine ⟨⟨fun h => h.not_clash hkeeps, fun h => addedApart_of_not_clash h hkeeps⟩,
    fun hnames => addedApart_of_not_clash (not_clash_of_isEntityName hnames) hkeeps, fun h => ?_⟩
  refine ⟨fun p hp => entities_resolve (hkeeps p hp) fun name hname => (h p hp name hname).1, ?_⟩
  intro merged bare
  refine ⟨fun p hp e he => ?_, fun name hname => get?_merged_of_not_added hname⟩
  have hname := fst_mem_addedNames he
  obtain ⟨hentities, hmeta⟩ := h.get?_bare hids hkeeps hp hname
  exact ⟨hentities, hmeta, h.get?_merged hids hkeeps hp he⟩

/-- A plugin whose extension adds an entity with one field. -/
def Plugin.adding (id name field : String) : Plugin :=
  { Plugin.ofId id id "1.0.0" with
    extension := ({} : Extension).addEntity name { fields := OrdMap.ofList [(field, FieldDef.ofType .string)] } }

/-- Two plugins add a log each, and both are kept. Of two plugins whose ids and names are divided at different
underscores the second one takes the entity of the first one away. -/
theorem Plugin.merge_added_logs :
    let logs := [Plugin.adding "auth" "log" "event", Plugin.adding "billing" "log" "amount"]
    let clashing := [Plugin.adding "a" "b_c" "x", Plugin.adding "a_b" "c" "y"]
    (AddedApart logs ∧ ((mergePlugins (logs.map (·.resolve.1))).entities.values.map fun e =>
      (e.name, e.fields.keys)) = [("auth_log", ["event"]), ("billing_log", ["amount"])]) ∧
    ¬AddedApart clashing ∧ ((mergePlugins (clashing.map (·.resolve.1))).entities.values.map fun e =>
      (e.name, e.fields.keys)) = [("a_b_c", ["y"])] := by
  intro logs clashing
  have hclash : AddedClash clashing :=
    .added (s := "b") (n := "c") (.head _) (.tail _ (.head _)) (by decide) (by decide) (by decide)
  have hids : (logs.map (·.id)).Nodup := by decide
  have hids' : (clashing.map (·.id)).Nodup := by decide
  obtain ⟨-, hapart, -⟩ := Plugin.merge_added hids (by decide)
  obtain ⟨hiff, -⟩ := Plugin.merge_added hids' (by decide)
  refine ⟨⟨hapart (by decide), by decide +kernel⟩, fun h => hiff.1 h hclash, by decide +kernel⟩

end EntityRest
