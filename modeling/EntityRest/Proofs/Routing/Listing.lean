import EntityRest.Proofs.Routing.Paths
import EntityRest.Proofs.Routing.Router

/-! # Listed operations

The router lists the operations that clients can reach (`mem_infos`), by a walk over the entities that has
nothing to do with how requests are matched. Yet a request leads only to what is listed, under the path of
the entity and with the id as it was sent (`matchRequest_sound`). -/

namespace EntityRest.Router

/-- How an operation on an entity is listed. -/
def infoOf (name : String) (m : Option EntityMeta) (op : Operation) : RouteInfo where
  method := op.method
  path := if op.onRecord then entityPath name (m.map (·.toEntityPlace)) ++ "/:id"
    else entityPath name (m.map (·.toEntityPlace))
  entity := name
  operation := op
  pluginId := m.map (·.pluginId)

theorem mem_infosOf {name : String} {m : Option EntityMeta} {info : RouteInfo} :
    info ∈ infosOf name m ↔
      ∃ op, m.elim RouteDecision.standard (·.decision op) ≠ .disable ∧ info = infoOf name m op := by
  unfold infosOf
  rw [List.mem_map]
  constructor
  · rintro ⟨op, hop, rfl⟩
    refine ⟨op, fun hdisable => ?_, rfl⟩
    simp [hdisable] at hop
  · rintro ⟨op, hopen, rfl⟩
    refine ⟨op, List.mem_filter.2 ⟨op.mem_all, ?_⟩, rfl⟩
    split
    · next hdisable => exact absurd hdisable hopen
    · rfl

/-- Every operation on an entity of the application is listed, and every operation on a public entity of a
plugin that is not disabled; and no other one. -/
theorem mem_infos {r : Router} {info : RouteInfo} :
    info ∈ r.infos ↔
      (∃ name ∈ r.appEntities, ∃ op, info = infoOf name none op) ∨
        ∃ name m op, r.entityMeta.get? name = some m ∧ m.isInternal = false ∧ m.decision op ≠ .disable ∧
          info = infoOf name (some m) op := by
  have happ : (∃ name ∈ r.appEntities, info ∈ infosOf name none) ↔
      ∃ name ∈ r.appEntities, ∃ op, info = infoOf name none op := by
    simp only [mem_infosOf]
    constructor
    · rintro ⟨name, hname, op, -, hinfo⟩
      exact ⟨name, hname, op, hinfo⟩
    · rintro ⟨name, hname, op, hinfo⟩
      exact ⟨name, hname, op, nofun, hinfo⟩
  have hplugin : (∃ e ∈ r.entityMeta.toList.filter fun e => !e.2.isInternal, info ∈ infosOf e.1 (some e.2)) ↔
      ∃ name m op, r.entityMeta.get? name = some m ∧ m.isInternal = false ∧ m.decision op ≠ .disable ∧
        info = infoOf name (some m) op := by
    simp only [List.mem_filter, mem_infosOf, OrdMap.get?_eq_some_iff]
    constructor
    · rintro ⟨⟨name, m⟩, ⟨hm, hpublic⟩, op, henabled, hinfo⟩
      exact ⟨name, m, op, hm, by simpa using hpublic, henabled, hinfo⟩
    · rintro ⟨name, m, op, hm, hpublic, henabled, hinfo⟩
      exact ⟨(name, m), ⟨hm, by simpa using hpublic⟩, op, henabled, hinfo⟩
  unfold infos
  rw [List.mem_append, List.mem_flatMap, List.mem_flatMap, ← happ, ← hplugin]

section

variable {r : Router} {method : String} {segments : List String} {em : EntityMatch} {m : EntityMeta}

theorem LeadsToPlugin.listed (h : r.LeadsToPlugin method segments em m) :
    infoOf em.entity (some m) em.operation ∈ r.infos :=
  mem_infos.2 (.inr ⟨em.entity, m, em.operation, h.entityMeta, h.isPublic, h.enabled, rfl⟩)

theorem LeadsToApp.listed (h : r.LeadsToApp method segments em) :
    infoOf em.entity none em.operation ∈ r.infos :=
  mem_infos.2 (.inl ⟨em.entity, h.entity, em.operation, rfl⟩)

theorem LeadsToApp.folded (h : r.LeadsToApp method segments em) :
    ∃ head, segments = head ++ em.id.toList ∧
      (folded head = [Text.lower (Naming.plural em.entity)] ∨ folded head = [Text.lower em.entity]) := by
  obtain ⟨head, rfl, hanswers⟩ := h.path
  refine ⟨[head], rfl, ?_⟩
  simp only [answersTo, Bool.or_eq_true, beq_iff_eq] at hanswers
  rcases hanswers with hplural | hname
  · exact .inl (by rw [hplural]; rfl)
  · exact .inr (by rw [hname]; rfl)

end

section

variable {entities : List String} {entityMeta : OrdMap String EntityMeta} {routes : List Route}
variable {method path : String} {em : EntityMatch} {m : EntityMeta}

theorem LeadsToPlugin.folded
    (h : (build entities entityMeta routes).1.LeadsToPlugin method (pathSegments path) em m) :
    ∃ head, pathSegments path = head ++ em.id.toList ∧
      folded head = folded (collection em.entity (some m.toEntityPlace)) := by
  obtain ⟨depth, hindex, hid⟩ := h.path
  have hsegments : ∀ s ∈ (pathSegments path).take depth, IsSegment s :=
    fun s hs => isSegment_of_mem_pathSegments (List.mem_of_mem_take hs)
  obtain ⟨m', hm', hfolded⟩ := of_get?_index hsegments hindex
  obtain rfl : m = m' := Option.some.inj (h.entityMeta.symm.trans hm')
  exact ⟨_, by rw [← hid, List.take_append_drop], hfolded⟩

/-- What a request leads to is listed, is the operation that its method stands for, and is reached under the
collection path of the entity; an internal entity or a disabled operation is not reached at all. -/
theorem matchRequest_sound (h : (build entities entityMeta routes).1.matchRequest method path = .entity em) :
    (∃ info ∈ (build entities entityMeta routes).1.infos,
      info.entity = em.entity ∧ info.operation = em.operation ∧ info.pluginId = em.pluginId) ∧
    Operation.ofMethod? method em.id.isSome = some em.operation ∧
    ∃ head, pathSegments path = head ++ em.id.toList ∧
      match entityMeta.get? em.entity with
      | some m =>
        folded head = folded (collection em.entity (some m.toEntityPlace)) ∧
          m.isInternal = false ∧ m.decision em.operation ≠ .disable ∧ em.pluginId = some m.pluginId
      | none =>
        (folded head = [Text.lower (Naming.plural em.entity)] ∨ folded head = [Text.lower em.entity]) ∧
          em.entity ∈ entities ∧ em.pluginId = none := by
  rcases matchRequest_eq_entity h with ⟨m, hplugin⟩ | happ
  · have hget : entityMeta.get? em.entity = some m := hplugin.entityMeta
    refine ⟨⟨_, hplugin.listed, rfl, rfl, hplugin.pluginId.symm⟩, hplugin.operation, ?_⟩
    obtain ⟨head, hpath, hfolded⟩ := hplugin.folded
    rw [hget]
    exact ⟨head, hpath, hfolded, hplugin.isPublic, hplugin.enabled, hplugin.pluginId⟩
  · have hget : entityMeta.get? em.entity = none := get?_of_mem_appEntities happ.entity
    refine ⟨⟨_, happ.listed, rfl, rfl, happ.pluginId.symm⟩, happ.operation, ?_⟩
    obtain ⟨head, hpath, hfolded⟩ := happ.folded
    rw [hget]
    exact ⟨head, hpath, hfolded, List.mem_of_mem_filter happ.entity, happ.pluginId⟩

end

/-- Keys of a plugin, under a path of their own; they cannot be removed. -/
def keysMeta : OrdMap String EntityMeta :=
  OrdMap.ofList
    [("apiKey",
      { declaredName := "apiKey", pluginId := "auth", basePath := some "/v1/auth", routePath := some "keys"
        isInternal := false, routeConfig := some (RouteConfig.standard.set .delete .disable) })]

/-- A key is read under a path with capitals, and what is listed says so; no request removes one. -/
theorem matchRequest_sound_keys :
    let r := (build ["post", "apiKey"] keysMeta []).1
    r.matchRequest "GET" "/V1/auth/KEYS/7" = .entity ⟨"apiKey", .read, some "7", some "auth", none⟩ ∧
    (∃ info ∈ r.infos, info.entity = "apiKey" ∧ info.operation = .read ∧ info.pluginId = some "auth") ∧
    ∀ method path em, r.matchRequest method path = .entity em → em.entity = "apiKey" →
      em.operation ≠ .delete := by
  intro r
  have hread : r.matchRequest "GET" "/V1/auth/KEYS/7" =
      .entity ⟨"apiKey", .read, some "7", some "auth", none⟩ := rfl
  refine ⟨hread, (matchRequest_sound hread).1, ?_⟩
  rintro method path ⟨_, op, id, pluginId, handler⟩ hmatch rfl rfl
  obtain ⟨-, -, head, -, -, -, henabled, -⟩ := matchRequest_sound hmatch
  exact henabled rfl

end EntityRest.Router
