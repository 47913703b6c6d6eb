import EntityRest.Proofs.Plugin.Renaming

/-! # What is resolved under fresh names

If the new names of an extension are fresh (`FreshNames`), resolving does not depend on how changes come
one after the other. The resolved entities are listed by `simultaneous`: the declared ones that are not
taken away, in their order, and then the added ones, where the name, the definition and the routing facts
of each are told by the declaration and by looking up the change of its declared name
(`resolveWith_simultaneous`). Hooks follow by `hookName`. -/

namespace EntityRest

namespace Resolve

/-- The extension takes the declared entity away. -/
def removes (x : Extension) (n : String) (d : PluginEntity) : Bool :=
  (x.entities.get? n).any (·.removes d)

def newName (x : Extension) (n : String) : String := ((x.entities.get? n).bind (·.rename)).getD n

def newDefinition (p : Plugin) (x : Extension) (n : String) (d : PluginEntity) : PluginEntity :=
  (x.entities.get? n).elim d (·.applyTo p.id n d)

def survivor? (p : Plugin) (x : Extension) (n : String) (d : PluginEntity) : Option Tracked :=
  if removes x n d then none else some ⟨newName x n, n, newDefinition p x n d⟩

/-- The declared entities that are not taken away, in their order. -/
def survivors (p : Plugin) (x : Extension) : List Tracked :=
  p.entities.toList.filterMap fun e => survivor? p x e.1 e.2

def simultaneous (p : Plugin) (x : Extension) : List Tracked :=
  survivors p x ++ (addedEntries p x).map fun e => .ofDeclared e.1 e.2

/-- The name of the entity that a hook for `n` is run for. -/
def hookName (p : Plugin) (x : Extension) (n : String) : String :=
  match p.entities.get? n with
  | some d => if removes x n d then n else newName x n
  | none => if n ∈ x.addEntities.keys then addedName p.id n else n

/-- No new name is declared, is the key of a change, or is given twice, and none that is left after all
changes is one under which an entity is added. -/
structure FreshNames (p : Plugin) (x : Extension) : Prop where
  undeclared : ∀ name ∈ newNames x.entities.toList, name ∉ p.entities.keys
  unkeyed : ∀ name ∈ newNames x.entities.toList, name ∉ x.entities.keys
  distinct : (newNames x.entities.toList).Nodup
  unadded : ∀ t ∈ survivors p x, t.name ∉ addedNames p x

variable {p : Plugin} {x : Extension}

theorem FreshNames.changes (h : FreshNames p x) : FreshChanges x.entities.toList :=
  ⟨x.entities.nodup_keys, h.unkeyed, h.distinct⟩

/-! ### Entities -/

section Undeclared

variable (hchanges : FreshChanges x.entities.toList)
  (hundeclared : ∀ name ∈ newNames x.entities.toList, name ∉ p.entities.keys)

include hchanges hundeclared

theorem follow_eq_survivor? {n : String} {d : PluginEntity} (hd : p.entities.get? n = some d) :
    (Work.start p).follow p.id x.entities.toList (.ofDeclared n d) = survivor? p x n d := by
  have hn : n ∉ newNames x.entities.toList := fun hname =>
    hundeclared n hname (OrdMap.mem_keys_of_get? hd)
  rw [Work.follow_eq hchanges hn]
  unfold survivor? removes newName newDefinition
  show (x.entities.get? n).elim _ _ = _
  cases x.entities.get? n with
  | none => rfl
  | some c =>
    dsimp only [Tracked.change, Tracked.changed, Tracked.ofDeclared, Option.any_some, Option.bind_some,
      Option.elim_some]
    rw [ite_self]
    rfl

theorem filterMap_follow :
    (allDeclared p).filterMap ((Work.start p).follow p.id x.entities.toList) = survivors p x := by
  rw [allDeclared, List.filterMap_map]
  exact List.filterMap_congr fun e he =>
    follow_eq_survivor? hchanges hundeclared (OrdMap.get?_eq_some_iff.2 he)

theorem toList_applyChanges :
    (applyChanges p.id p.entities x).entities.toList = (survivors p x).map Tracked.entry := by
  rw [applyChanges_eq, Work.toList_run hchanges (toList_start p) hundeclared,
    filterMap_follow hchanges hundeclared]

end Undeclared

theorem map_entry_simultaneous (p : Plugin) (x : Extension) :
    (simultaneous p x).map Tracked.entry = (survivors p x).map Tracked.entry ++ addedEntries p x := by
  rw [simultaneous, List.map_append, List.map_map]
  exact congrArg _ (List.map_id _)

theorem toList_finalEntities (h : FreshNames p x) :
    (finalEntities p x).toList = (simultaneous p x).map Tracked.entry := by
  have hlist := toList_applyChanges h.changes h.undeclared
  have hfree : ∀ name ∈ (addedEntries p x).map Prod.fst,
      name ∉ (applyChanges p.id p.entities x).entities.keys := by
    rw [map_fst_addedEntries, OrdMap.keys, hlist, List.map_map]
    intro name hadded hname
    obtain ⟨t, ht, rfl⟩ := List.mem_map.1 hname
    exact h.unadded t ht hadded
  rw [finalEntities, withAdded_eq, OrdMap.toList_insertMany_of_disjoint (nodup_addedEntries p x) hfree,
    hlist, map_entry_simultaneous]

/-! ### The table of renames -/

theorem toList_renames (h : FreshNames p x) :
    (applyChanges p.id p.entities x).renames.toList =
      (x.entities.toList.filterMap (Work.renamedBy p.entities)).map Prod.swap := by
  have hnone : ∀ name ∈ newNames x.entities.toList, name ∉ (Work.start p).renames.keys :=
    fun _ _ => List.not_mem_nil
  rw [applyChanges_eq, Work.toList_renames_run h.changes hnone]
  rfl

/-- A name in the table is that of an entity that is left. -/
theorem mem_survivors_of_renamed (h : FreshNames p x) {name : String}
    (hname : name ∈ (applyChanges p.id p.entities x).renames.keys) : ∃ t ∈ survivors p x, t.name = name := by
  rw [OrdMap.keys, toList_renames h, List.map_map] at hname
  obtain ⟨⟨n, name⟩, hmem, rfl⟩ := List.mem_map.1 hname
  obtain ⟨⟨n, c⟩, hc, hrenamed⟩ := List.mem_filterMap.1 hmem
  obtain ⟨rfl, hrename, d, hd, hr⟩ := Work.renamedBy_eq_some_iff.1 hrenamed
  have hget : x.entities.get? n = some c := OrdMap.get?_eq_some_iff.2 hc
  have hkept : survivor? p x n d = some ⟨newName x n, n, newDefinition p x n d⟩ := by
    refine if_neg ?_
    rw [removes, hget, Option.any_some, hr]
    exact Bool.false_ne_true
  refine ⟨_, List.mem_filterMap.2 ⟨(n, d), OrdMap.get?_eq_some_iff.1 hd, hkept⟩, ?_⟩
  show newName x n = name
  rw [newName, hget, Option.bind_some, hrename, Option.getD_some]

theorem resolved_survivor (h : FreshNames p x) {t : Tracked} (ht : t ∈ survivors p x) :
    (resolved p x t.name t.entity).entity = entityOf p x t ∧
      (resolved p x t.name t.entity).info = metaOf p x t := by
  have hformer := (holds_applyChanges p x).former t (by rwa [filterMap_follow h.changes h.undeclared])
  obtain ⟨⟨n, d⟩, he, hsurvivor⟩ := List.mem_filterMap.1 ht
  have hfollow := follow_eq_survivor? h.changes h.undeclared (OrdMap.get?_eq_some_iff.2 he)
  exact resolved_eq hformer (Work.follow_formerName (hfollow.trans hsurvivor) rfl)

theorem resolved_added (h : FreshNames p x) {e : String × PluginEntity} (he : e ∈ addedEntries p x) :
    let t := Tracked.ofDeclared e.1 e.2
    (resolved p x t.name t.entity).entity = entityOf p x t ∧
      (resolved p x t.name t.entity).info = metaOf p x t := by
  have hadded := fst_mem_addedNames he
  -- a name in the table is that of an entity that is left, and so not an added one
  have hnone : (applyChanges p.id p.entities x).renames.get? e.1 = none := by
    refine OrdMap.get?_eq_none_iff.2 fun hname => ?_
    obtain ⟨t, ht, heq⟩ := mem_survivors_of_renamed h hname
    exact h.unadded t ht (heq ▸ hadded)
  refine resolved_eq ?_ (.inl rfl)
  show OrdMap.getD _ e.1 e.1 = e.1
  rw [OrdMap.getD, hnone, Option.getD_none]

theorem resolved_simultaneous (h : FreshNames p x) {t : Tracked} (ht : t ∈ simultaneous p x) :
    (resolved p x t.name t.entity).entity = entityOf p x t ∧
      (resolved p x t.name t.entity).info = metaOf p x t := by
  rcases List.mem_append.1 ht with ht | ht
  · exact resolved_survivor h ht
  · obtain ⟨e, he, rfl⟩ := List.mem_map.1 ht
    exact resolved_added h he

theorem entities_of_fresh (h : FreshNames p x) :
    (p.resolveWith x).1.entities = (simultaneous p x).map (entityOf p x) := by
  rw [entities_resolveWith, toList_finalEntities h, List.map_map]
  exact List.map_congr_left fun t ht => (resolved_simultaneous h ht).1

theorem toList_entityMeta_of_fresh (h : FreshNames p x) :
    (p.resolveWith x).1.entityMeta.toList = (simultaneous p x).map fun t => (t.name, metaOf p x t) := by
  show ((finalEntities p x).toList.map fun e => (e.1, resolved p x e.1 e.2)).map _ = _
  rw [toList_finalEntities h, List.map_map, List.map_map]
  exact List.map_congr_left fun t ht => Prod.ext rfl (resolved_simultaneous h ht).2

/-! ### Hooks -/

/-- Names that are declared are not given to added entities. -/
theorem get?_foldl_insert_added (entities : OrdMap String PluginEntity) (plugin : String)
    (l : List (String × PluginEntity)) (m : OrdMap String String) (n : String) :
    (l.foldl (fun m e => if entities.contains e.1 then m else m.insert e.1 (addedName plugin e.1)) m).get? n =
      if n ∈ l.map Prod.fst ∧ n ∉ entities.keys then some (addedName plugin n) else m.get? n := by
  induction l generalizing m with
  | nil => rfl
  | cons e l ih =>
    have hcons : n ∈ (e :: l).map Prod.fst ↔ n = e.1 ∨ n ∈ l.map Prod.fst := List.mem_cons
    rw [List.foldl_cons, ih]
    by_cases hdeclared : e.1 ∈ entities.keys
    · rw [if_pos (OrdMap.contains_iff_mem_keys.2 hdeclared)]
      grind
    · rw [if_neg (mt OrdMap.contains_iff_mem_keys.1 hdeclared), OrdMap.get?_insert]
      grind

theorem get?_hookTargets (p : Plugin) (x : Extension) (renames : OrdMap String String) (n : String) :
    (hookTargets p x renames).get? n =
      if n ∈ x.addEntities.keys ∧ n ∉ p.entities.keys then some (addedName p.id n)
      else (OrdMap.ofList (renames.toList.map Prod.swap)).get? n :=
  get?_foldl_insert_added p.entities p.id x.addEntities.toList _ n

/-- The new name of a declared name, read off the table of renames. -/
theorem get?_swap_renames (h : FreshNames p x) (n : String) :
    (OrdMap.ofList ((applyChanges p.id p.entities x).renames.toList.map Prod.swap)).get? n =
      (p.entities.get? n).bind fun d =>
        if removes x n d then none else (x.entities.get? n).bind (·.rename) := by
  have hswap : (applyChanges p.id p.entities x).renames.toList.map Prod.swap =
      x.entities.toList.filterMap (Work.renamedBy p.entities) := by
    rw [toList_renames h, List.map_map]
    exact List.map_id _
  -- seen from the declared names, the table has the keys of changes, so that none comes over another
  have hnodup : ((x.entities.toList.filterMap (Work.renamedBy p.entities)).map Prod.fst).Nodup := by
    have hkeys : x.entities.toList.Pairwise fun e e' => e.1 ≠ e'.1 :=
      List.pairwise_map.1 x.entities.nodup_keys
    refine List.pairwise_map.2 (List.pairwise_filterMap.2 (hkeys.imp fun hne a ha b hb => ?_))
    rwa [← (Work.renamedBy_eq_some_iff.1 ha).1, ← (Work.renamedBy_eq_some_iff.1 hb).1]
  have hmem (name : String) : (n, name) ∈ x.entities.toList.filterMap (Work.renamedBy p.entities) ↔
      ∃ c, x.entities.get? n = some c ∧ c.rename = some name ∧
        ∃ d, p.entities.get? n = some d ∧ c.removes d = false := by
    rw [List.mem_filterMap]
    constructor
    · rintro ⟨⟨n, c⟩, hc, hrenamed⟩
      obtain ⟨rfl, hkept⟩ := Work.renamedBy_eq_some_iff.1 hrenamed
      exact ⟨c, OrdMap.get?_eq_some_iff.2 hc, hkept⟩
    · rintro ⟨c, hc, hkept⟩
      exact ⟨(n, c), OrdMap.get?_eq_some_iff.1 hc, Work.renamedBy_eq_some_iff.2 ⟨rfl, hkept⟩⟩
  refine Option.ext fun name => ?_
  rw [hswap, OrdMap.get?_eq_some_iff, OrdMap.ofList, OrdMap.toList_insertMany_of_disjoint hnodup
    fun _ _ => List.not_mem_nil]
  refine (hmem name).trans ?_
  unfold removes
  cases x.entities.get? n with
  | none => cases p.entities.get? n <;> simp
  | some c => cases p.entities.get? n <;> simp [and_comm]

theorem getD_hookTargets (h : FreshNames p x) (n : String) :
    (hookTargets p x (applyChanges p.id p.entities x).renames).getD n n = hookName p x n := by
  rw [OrdMap.getD, get?_hookTargets, get?_swap_renames h]
  unfold hookName newName
  cases hd : p.entities.get? n with
  | none =>
    have hkey : n ∉ p.entities.keys := OrdMap.get?_eq_none_iff.1 hd
    by_cases hadded : n ∈ x.addEntities.keys <;> simp [hadded, hkey]
  | some d =>
    have hkey : n ∈ p.entities.keys := OrdMap.mem_keys_of_get? hd
    rw [if_neg fun hadded => hadded.2 hkey, Option.bind_some]
    dsimp only
    split <;> rfl

theorem hooks_of_fresh (h : FreshNames p x) :
    (p.resolveWith x).1.hooks = p.hooks.map fun k => { k with entity := hookName p x k.entity } := by
  show p.hooks.map (retarget (hookTargets p x (applyChanges p.id p.entities x).renames)) = _
  refine List.map_congr_left fun k _ => ?_
  rw [retarget, getD_hookTargets h]

/-! ### The order of changes -/

section Order

variable {entities : OrdMap String EntityChange} (hget : ∀ n, entities.get? n = x.entities.get? n)

include hget

theorem survivors_congr : survivors p { x with entities } = survivors p x := by
  refine List.filterMap_congr fun e _ => ?_
  simp only [survivor?, removes, newName, newDefinition, hget]
  rfl

theorem simultaneous_congr : simultaneous p { x with entities } = simultaneous p x := by
  rw [simultaneous, survivors_congr hget]
  rfl

theorem entityOf_congr (t : Tracked) : entityOf p { x with entities } t = entityOf p x t := by
  simp only [entityOf, tagOf, changeOf, hget]
  rfl

theorem metaOf_congr (t : Tracked) : metaOf p { x with entities } t = metaOf p x t := by
  simp only [metaOf, tagOf, changeOf, hget]
  rfl

theorem hookName_congr (n : String) : hookName p { x with entities } n = hookName p x n := by
  simp only [hookName, removes, newName, hget]
  rfl

end Order

theorem FreshNames.of_perm (h : FreshNames p x) {entities : OrdMap String EntityChange}
    (hperm : entities.toList.Perm x.entities.toList) : FreshNames p { x with entities } := by
  have hnames : (newNames entities.toList).Perm (newNames x.entities.toList) := hperm.filterMap _
  have hsame : survivors p { x with entities } = survivors p x :=
    survivors_congr (OrdMap.get?_eq_of_perm hperm)
  refine ⟨fun name hname => h.undeclared name (hnames.subset hname), fun name hname hkey => ?_,
    hnames.nodup_iff.2 h.distinct, hsame ▸ h.unadded⟩
  exact h.unkeyed name (hnames.subset hname) ((hperm.map Prod.fst).subset hkey)

end Resolve

open Resolve

/-- With fresh names the resolved entities are the declared ones that are not taken away, each under its
new name in its old place, and the added ones; hooks follow; and changes may come in any order. -/
theorem Plugin.resolveWith_simultaneous (p : Plugin) (x : Extension) (h : FreshNames p x) :
    let r := (p.resolveWith x).1
    r.entities = (simultaneous p x).map (entityOf p x) ∧
      (r.entityMeta.toList = (simultaneous p x).map fun t => (t.name, metaOf p x t)) ∧
      (r.hooks = p.hooks.map fun k => { k with entity := hookName p x k.entity }) ∧
      ∀ entities : OrdMap String EntityChange, entities.toList.Perm x.entities.toList →
        let r' := (p.resolveWith { x with entities }).1
        r'.entities = r.entities ∧ r'.entityMeta = r.entityMeta ∧ r'.hooks = r.hooks := by
  refine ⟨entities_of_fresh h, toList_entityMeta_of_fresh h, hooks_of_fresh h, fun entities hperm => ?_⟩
  have hget := OrdMap.get?_eq_of_perm hperm
  have h' := h.of_perm hperm
  refine ⟨?_, OrdMap.ext ?_, ?_⟩
  · rw [entities_of_fresh h, entities_of_fresh h', simultaneous_congr hget]
    exact List.map_congr_left fun t _ => entityOf_congr hget t
  · rw [toList_entityMeta_of_fresh h, toList_entityMeta_of_fresh h', simultaneous_congr hget]
    exact List.map_congr_left fun t _ => Prod.ext rfl (metaOf_congr hget t)
  · rw [hooks_of_fresh h, hooks_of_fresh h']
    exact List.map_congr_left fun k _ => by rw [hookName_congr hget]

/-- Users become members, sessions go away, and a log is added. -/
def Extension.members : Extension :=
  ((({} : Extension).renameEntity "user" "member").removeEntity "session").addEntity "log" {}

/-- The accounts with a hook for what is renamed, one for what is added, and one for all. -/
def Plugin.watchedAccounts : Plugin :=
  { Plugin.accounts with
    hooks := ["user", "log", "*"].map fun entity => ⟨entity, .after .create, pure⟩ }

theorem Plugin.resolveWith_simultaneous_members :
    let p := Plugin.watchedAccounts
    let r := (p.resolveWith .members).1
    FreshNames p .members ∧ r.entities = (simultaneous p .members).map (entityOf p .members) ∧
      (r.entities.map fun e => (e.name, e.fields.keys)) = [("member", ["email"]), ("auth_log", [])] ∧
      r.hooks.map (·.entity) = ["member", "auth_log", "*"] := by
  intro p r
  have hfresh : FreshNames p .members :=
    { undeclared := by decide +kernel
      unkeyed := by decide +kernel
      distinct := by decide +kernel
      unadded := by decide +kernel }
  obtain ⟨hentities, -, hhooks, -⟩ := Plugin.resolveWith_simultaneous p .members hfresh
  refine ⟨hfresh, hentities, ?_, ?_⟩
  · rw [hentities]; decide +kernel
  · rw [hhooks]; decide +kernel

end EntityRest
