import EntityRest.Routing.Router
import EntityRest.Proofs.Data.OrdMap

/-! # Which entities the router leads to

Inversion of the router, function by function: what is known if a request leads to an operation on an
entity. Either the path is that of a plugin entity, which has metadata, is not internal and has the
operation enabled (`LeadsToPlugin`), or the entity is one of the application (`LeadsToApp`). Entities
that have metadata are not among those of the application, so that nothing leads to an internal one
(`isInternal_eq_false_of_matchRequest`). -/

namespace EntityRest.Router

/-- A method and the segments of a path lead to an operation on an entity of a plugin. -/
structure LeadsToPlugin (r : Router) (method : String) (segments : List String) (em : EntityMatch)
    (m : EntityMeta) : Prop where
  entityMeta : r.entityMeta.get? em.entity = some m
  path : ∃ depth, r.index.get? (pathKey (segments.take depth)) = some em.entity ∧
    segments.drop depth = em.id.toList
  operation : Operation.ofMethod? method em.id.isSome = some em.operation
  isPublic : m.isInternal = false
  enabled : m.decision em.operation ≠ .disable
  pluginId : em.pluginId = some m.pluginId

/-- A method and the segments of a path lead to an operation on an entity of the application. -/
structure LeadsToApp (r : Router) (method : String) (segments : List String) (em : EntityMatch) : Prop where
  entity : em.entity ∈ r.appEntities
  path : ∃ head, segments = head :: em.id.toList ∧ answersTo (Text.lower head) em.entity = true
  operation : Operation.ofMethod? method em.id.isSome = some em.operation
  pluginId : em.pluginId = none

variable {r : Router} {method path : String} {segments : List String} {em : EntityMatch}

theorem matchRoutes_eq_some {i : Nat} {routes : List Route} {result : RouteMatch}
    (h : matchRoutes method path i routes = some result) :
    ∃ route index params, result = .route route index params := by
  induction routes generalizing i with
  | nil => cases h
  | cons route routes ih =>
    unfold matchRoutes at h
    split at h
    · split at h
      · cases h; exact ⟨_, _, _, rfl⟩
      · exact ih h
    · exact ih h

theorem matchOperation_eq_entity {name : String} {m : EntityMeta} {id : Option String}
    (h : matchOperation method name m id = .entity em) :
    em.entity = name ∧ em.id = id ∧ em.pluginId = some m.pluginId ∧
      Operation.ofMethod? method id.isSome = some em.operation ∧ m.isInternal = false ∧
      m.decision em.operation ≠ .disable := by
  unfold matchOperation at h
  cases hop : Operation.ofMethod? method id.isSome with
  | none => rw [hop] at h; cases h
  | some op =>
    rw [hop] at h
    dsimp only at h
    split at h
    · cases h
    · next hpublic =>
      have hfound : ∀ {handler : Option Handler},
          RouteMatch.entity ⟨name, op, id, some m.pluginId, handler⟩ = .entity em →
          m.decision op ≠ .disable → em.entity = name ∧ em.id = id ∧ em.pluginId = some m.pluginId ∧
            some op = some em.operation ∧ m.isInternal = false ∧ m.decision em.operation ≠ .disable := by
        rintro handler ⟨⟩ henabled
        exact ⟨rfl, rfl, rfl, rfl, Bool.eq_false_iff.2 hpublic, henabled⟩
      split at h
      · next hdecision => exact hfound h (by rw [hdecision]; nofun)
      · cases h
      · next hdecision => exact hfound h (by rw [hdecision]; nofun)

/-- A list with at most one element is that element, if there is one. -/
theorem eq_toList_head? {α : Type} {l : List α} (h : ¬1 < l.length) : l = l.head?.toList := by
  match l with
  | [] => rfl
  | [a] => rfl
  | a :: b :: l => exact absurd (by simp) h

theorem matchDepth_eq_entity {depth : Nat} (h : r.matchDepth method segments depth = some (.entity em)) :
    ∃ m, r.LeadsToPlugin method segments em m := by
  unfold matchDepth at h
  obtain ⟨name, hindex, h⟩ := Option.bind_eq_some_iff.1 h
  dsimp only at h
  split at h
  · cases h
  · next hlength =>
    obtain ⟨m, hmeta, h⟩ := Option.bind_eq_some_iff.1 h
    obtain ⟨rfl, hid, hplugin, hop, hpublic, henabled⟩ := matchOperation_eq_entity (Option.some.inj h)
    rw [← hid] at hop
    refine ⟨m, hmeta, ⟨depth, hindex, ?_⟩, hop, hpublic, henabled, hplugin⟩
    rw [hid]
    exact eq_toList_head? hlength

theorem matchPluginEntity_eq_entity (h : r.matchPluginEntity method segments = some (.entity em)) :
    ∃ m, r.LeadsToPlugin method segments em m := by
  obtain ⟨depth, -, h⟩ := List.exists_of_findSome?_eq_some h
  exact matchDepth_eq_entity h

theorem matchAppEntity_eq_entity (h : r.matchAppEntity method segments = .entity em) :
    r.LeadsToApp method segments em := by
  unfold matchAppEntity at h
  split at h
  · cases h
  · next head rest =>
    split at h
    · cases h
    · next hlength =>
      split at h
      · cases h
      · next name hfind =>
        split at h
        · next op hop =>
          cases h
          exact ⟨List.mem_of_find?_eq_some hfind, ⟨head, congrArg _ (eq_toList_head? hlength),
            List.find?_some hfind⟩, hop, rfl⟩
        · cases h

/-- A request that leads to an operation on an entity leads to one of a plugin or of the application. -/
theorem matchRequest_eq_entity (h : r.matchRequest method path = .entity em) :
    (∃ m, r.LeadsToPlugin method (pathSegments path) em m) ∨ r.LeadsToApp method (pathSegments path) em := by
  unfold matchRequest at h
  dsimp only at h
  split at h
  · cases h
  · split at h
    · cases h
    · cases hroutes : matchRoutes method path 0 r.routes with
      | some result =>
        obtain ⟨route, index, params, rfl⟩ := matchRoutes_eq_some hroutes
        rw [hroutes] at h
        cases h
      | none =>
        rw [hroutes] at h
        cases hplugin : r.matchPluginEntity method (pathSegments path) with
        | some result =>
          rw [hplugin] at h
          cases (show result = .entity em from h)
          exact .inl (matchPluginEntity_eq_entity hplugin)
        | none =>
          rw [hplugin] at h
          exact .inr (matchAppEntity_eq_entity h)

theorem get?_of_mem_appEntities {entities : List String} {entityMeta : OrdMap String EntityMeta}
    {routes : List Route} {name : String} (h : name ∈ (build entities entityMeta routes).1.appEntities) :
    entityMeta.get? name = none := by
  obtain ⟨-, hname⟩ := List.mem_filter.1 h
  cases hget : entityMeta.get? name with
  | none => rfl
  | some m =>
    rw [OrdMap.contains, hget] at hname
    cases hname

/-- No request leads to an internal entity. -/
theorem isInternal_eq_false_of_matchRequest {entities : List String} {entityMeta : OrdMap String EntityMeta}
    {routes : List Route} {m : EntityMeta}
    (h : (build entities entityMeta routes).1.matchRequest method path = .entity em)
    (hmeta : entityMeta.get? em.entity = some m) : m.isInternal = false := by
  rcases matchRequest_eq_entity h with ⟨m', hplugin⟩ | happ
  · have hget : entityMeta.get? em.entity = some m' := hplugin.entityMeta
    rw [hmeta] at hget
    cases hget
    exact hplugin.isPublic
  · have hnone := get?_of_mem_appEntities happ.entity
    rw [hmeta] at hnone
    cases hnone

end EntityRest.Router
