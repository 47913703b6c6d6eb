import EntityRest.Plugin.Resolve
import EntityRest.Proofs.Data.Entries

/-! # Entities and their metadata

Entities travel apart from the facts about their routes, in a map of their own. What keeps the two
together is `Tagged`: whatever has metadata is there, with a tag that says the same. A resolved plugin
gives entities and metadata under the same names (`coherent_resolveWith`), so that where it takes the
place of an earlier entity it takes that of the metadata as well, and merging keeps the maps together
(`tagged_mergePlugins`). -/

namespace EntityRest

/-- What an entity says of its routes itself. -/
def EntityPlace.tag (m : EntityPlace) : PluginTag := ⟨m.pluginId, m.basePath, m.routePath, m.isInternal⟩

/-- Every entity with metadata is there and bears the tag that they give it. -/
def Tagged (entities : OrdMap String Entity) (entityMeta : OrdMap String EntityMeta) : Prop :=
  ∀ name m, entityMeta.get? name = some m → ∃ e, entities.get? name = some e ∧ e.plugin = some m.tag

/-- The entities of a resolved plugin are those with metadata, and the two agree. -/
structure ResolvedPlugin.Coherent (p : ResolvedPlugin) : Prop where
  names : p.entities.map (·.name) = p.entityMeta.keys
  tags : ∀ e ∈ p.entities, ∃ m, p.entityMeta.get? e.name = some m ∧ e.plugin = some m.tag

namespace Tagged

variable {entities : OrdMap String Entity} {entityMeta : OrdMap String EntityMeta}

theorem empty (entities : OrdMap String Entity) : Tagged entities ∅ := nofun

/-- Later entries win in both maps; a name that only one of them gets anew would part them. -/
theorem merge (h : Tagged entities entityMeta) {p : ResolvedPlugin} (hp : p.Coherent) :
    Tagged (entities.insertMany (p.entities.map fun e => (e.name, e))) (entityMeta.union p.entityMeta) := by
  have hkeys : (p.entities.map fun e => (e.name, e)).map Prod.fst = p.entityMeta.keys := by
    rw [List.map_map]; exact hp.names
  have hnodup : ((p.entities.map fun e => (e.name, e)).map Prod.fst).Nodup := by
    rw [hkeys]; exact p.entityMeta.nodup_keys
  intro name m hm
  rw [OrdMap.get?_insertMany hnodup]
  rw [OrdMap.get?_union, Option.or_eq_some_iff] at hm
  rcases hm with hnew | ⟨hnone, hold⟩
  · have hname : name ∈ p.entities.map (·.name) := by rw [hp.names]; exact OrdMap.mem_keys_of_get? hnew
    obtain ⟨e, he, rfl⟩ := List.mem_map.1 hname
    have hlookup : (p.entities.map fun e => (e.name, e)).lookup e.name = some e :=
      (OrdMap.lookup_eq_some_iff hnodup).2 (List.mem_map.2 ⟨e, he, rfl⟩)
    obtain ⟨m', hm', htag⟩ := hp.tags e he
    obtain rfl : m' = m := Option.some.inj (hm'.symm.trans hnew)
    exact ⟨e, by rw [hlookup]; rfl, htag⟩
  · have hlookup : (p.entities.map fun e => (e.name, e)).lookup name = none := by
      rw [Lookup.lookup_eq_none_iff, hkeys]
      exact OrdMap.get?_eq_none_iff.1 hnone
    rw [hlookup]
    exact h name m hold

/-- What lies below the entities with metadata does not matter. -/
theorem union {added : OrdMap String Entity} (h : Tagged added entityMeta) (entities : OrdMap String Entity) :
    Tagged (entities.union added) entityMeta := by
  intro name m hm
  obtain ⟨e, he, htag⟩ := h name m hm
  exact ⟨e, by rw [OrdMap.get?_union, he]; rfl, htag⟩

theorem modify (h : Tagged entities entityMeta) (target : String) {f : Entity → Entity}
    (hf : ∀ e, (f e).plugin = e.plugin) : Tagged (entities.modify target f) entityMeta := by
  intro name m hm
  obtain ⟨e, he, htag⟩ := h name m hm
  rw [OrdMap.modify, OrdMap.get?_mapEntries, he]
  by_cases hname : name = target
  · exact ⟨f e, by rw [Option.map_some, if_pos hname], by rw [hf, htag]⟩
  · exact ⟨e, by rw [Option.map_some, if_neg hname], htag⟩

end Tagged

theorem Plugin.coherent_resolveWith (p : Plugin) (x : Extension) : (p.resolveWith x).1.Coherent := by
  let work := Resolve.applyChanges p.id p.entities x
  let resolve := Resolve.resolveEntity p x (Resolve.basePathOf p x) work.renames
  let resolved := (Resolve.withAdded p.id work.entities x).mapEntries resolve
  have hname : ∀ name d, (resolve name d).entity.name = name := fun _ _ => rfl
  have htag : ∀ name d, (resolve name d).entity.plugin = some (resolve name d).info.tag := fun _ _ => rfl
  have hentry : ∀ name r, (name, r) ∈ resolved.toList → r.entity.name = name ∧ r.entity.plugin = some r.info.tag := by
    intro name r hr
    obtain ⟨⟨name, d⟩, -, heq⟩ := List.mem_map.1 hr
    obtain ⟨rfl, rfl⟩ := Prod.mk.inj heq
    exact ⟨hname _ _, htag _ _⟩
  constructor
  · show (resolved.values.map (·.entity)).map (·.name) = (resolved.mapEntries fun _ r => r.info).keys
    rw [OrdMap.keys_mapEntries, OrdMap.values, OrdMap.keys, List.map_map, List.map_map]
    exact List.map_congr_left fun e he => (hentry e.1 e.2 he).1
  · intro e he
    obtain ⟨r, hr, rfl⟩ := List.mem_map.1 he
    obtain ⟨⟨name, r⟩, hmem, rfl⟩ := List.mem_map.1 hr
    obtain ⟨rfl, htag⟩ := hentry name r hmem
    refine ⟨r.info, ?_, htag⟩
    show (resolved.mapEntries fun _ r => r.info).get? r.entity.name = some r.info
    rw [OrdMap.get?_mapEntries, OrdMap.get?_eq_some_iff.2 hmem]
    rfl

theorem tagged_mergePlugins {plugins : List ResolvedPlugin} (h : ∀ p ∈ plugins, p.Coherent) :
    Tagged (mergePlugins plugins).entities (mergePlugins plugins).entityMeta := by
  have hfold : ∀ (l : List ResolvedPlugin) (entities : OrdMap String Entity)
      (entityMeta : OrdMap String EntityMeta), (∀ p ∈ l, p.Coherent) → Tagged entities entityMeta →
      Tagged (l.foldl (fun m p => m.insertMany (p.entities.map fun e => (e.name, e))) entities)
        (l.foldl (fun m p => m.union p.entityMeta) entityMeta) := by
    intro l
    induction l with
    | nil => exact fun _ _ _ h => h
    | cons p l ih =>
      intro entities entityMeta hl h
      have hp : p.Coherent := hl p List.mem_cons_self
      exact ih _ _ (fun q hq => hl q (List.mem_cons_of_mem _ hq)) (h.merge hp)
  exact hfold plugins ∅ ∅ h (.empty ∅)

end EntityRest
