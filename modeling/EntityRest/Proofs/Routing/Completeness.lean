import EntityRest.Proofs.Routing.Listing
import Mathlib.Data.List.Nodup
import Mathlib.Data.List.Pairwise

/-! # Listed operations are served

If the paths of the entities are told apart by their segments, none of them the beginning of another
(`Unambiguous`), then a request for a listed operation leads to it (`matchRequest_infos`). Of the beginnings
of such a request's path only the collection path of the entity is known (`collection_eq_of_get?_index`), so
the search for the shortest one that is ends there.

The search looks at no more than `maxDepth` segments, and at one for an entity of the application. What is
listed under a longer path is not served (`notFound_of_long_paths`). -/

namespace EntityRest

/-- The id that a request for an operation names. -/
def Operation.idOf (op : Operation) (id : String) : Option String := if op.onRecord then some id else none

theorem Operation.ofMethod?_method (op : Operation) (id : String) :
    Operation.ofMethod? op.method (op.idOf id).isSome = some op := by
  cases op <;> rfl

/-- The path of a listed operation, with an id for the `:id` at its end. -/
def RouteInfo.pathFor (info : RouteInfo) (id : String) : String :=
  if info.operation.onRecord then String.ofList (info.path.toList.take (info.path.toList.length - 3)) ++ id
  else info.path

namespace Router

/-- An entity of the application is reached under its collection path and under its name. -/
def appPaths (name : String) : List (List String) := [folded (collection name none), [Text.lower name]]

/-- The paths that lead to entities, as segments in lower case. -/
def knownPaths (r : Router) : List (List String) :=
  r.appEntities.flatMap appPaths ++
    r.entityMeta.toList.map fun e => folded (collection e.1 (some e.2.toEntityPlace))

/-- The known paths differ, none is the beginning of another, and none stands for something else. -/
structure Unambiguous (r : Router) : Prop where
  nodup : r.knownPaths.Nodup
  prefixFree : ∀ p ∈ r.knownPaths, ∀ q ∈ r.knownPaths, p <+: q → p = q
  nonempty : [] ∉ r.knownPaths
  notHealth : ["health"] ∉ r.knownPaths ∧ ["_health"] ∉ r.knownPaths

/-! ### The path of a request -/

theorem pathFor_infoOf (name id : String) (m : Option EntityMeta) (op : Operation) :
    (infoOf name m op).pathFor id =
      if op.onRecord then entityPath name (m.map (·.toEntityPlace)) ++ "/" ++ id
      else entityPath name (m.map (·.toEntityPlace)) := by
  unfold RouteInfo.pathFor infoOf
  dsimp only
  split
  · refine String.toList_inj.1 ?_
    have htake : ∀ cs : List Char, (cs ++ ['/', ':', 'i', 'd']).take (cs.length + 1) = cs ++ ['/'] := fun cs => by
      rw [List.take_length_add_append]; rfl
    simp [String.toList_append, htake]
  · rfl

theorem pathSegments_pathFor (name : String) (m : Option EntityMeta) (op : Operation) {id : String}
    (hid : IsSegment id) :
    pathSegments ((infoOf name m op).pathFor id) =
      collection name (m.map (·.toEntityPlace)) ++ (op.idOf id).toList := by
  rw [pathFor_infoOf, Operation.idOf]
  split
  · rw [pathSegments_join, pathSegments_of_isSegment hid]; rfl
  · simp [collection]

theorem pathSegments_trimEndSlashes (path : String) :
    pathSegments (trimEndSlashes path) = pathSegments path := by
  have htrim : ∀ cs : List Char, pathSegments (String.ofList (cs.dropWhile (· = '/')).reverse) =
      pathSegments (String.ofList cs.reverse) := by
    intro cs
    induction cs with
    | nil => rfl
    | cons c cs ih =>
      by_cases hc : c = '/'
      · have hjoin : String.ofList (c :: cs).reverse = String.ofList cs.reverse ++ "/" ++ "" := by
          refine String.toList_inj.1 ?_
          simp [hc, String.toList_append]
        rw [hjoin, pathSegments_join, pathSegments_empty, List.append_nil, ← ih]
        simp [hc]
      · simp [hc]
  rw [trimEndSlashes, Text.dropEndWhile, htrim, List.reverse_reverse, String.ofList_toList]

section

variable {entities : List String} {entityMeta : OrdMap String EntityMeta}
variable {method path name : String} {segments rest : List String} {m : EntityMeta}

/-- Where no route of a plugin is in the way, the entities of plugins come before those of the application. -/
theorem matchRequest_of_no_routes {r : Router} (hroutes : r.routes = []) (hsegments : pathSegments path ≠ [])
    (hhealth : pathSegments path ≠ ["health"]) (hhealth' : pathSegments path ≠ ["_health"]) :
    r.matchRequest method path =
      (r.matchPluginEntity method (pathSegments path)).getD (r.matchAppEntity method (pathSegments path)) := by
  have htrim : trimEndSlashes path ≠ "/health" := fun htrim =>
    hhealth (by rw [← pathSegments_trimEndSlashes, htrim]; rfl)
  have htrim' : trimEndSlashes path ≠ "/_health" := fun htrim =>
    hhealth' (by rw [← pathSegments_trimEndSlashes, htrim]; rfl)
  have hnonempty : ¬(pathSegments path).isEmpty = true := by rwa [List.isEmpty_iff]
  unfold matchRequest
  dsimp only
  rw [if_neg (by simp [htrim, htrim']), if_neg hnonempty, hroutes]
  rfl

/-! ### Known paths -/

theorem mem_knownPaths_plugin (entities : List String) (h : entityMeta.get? name = some m) :
    folded (collection name (some m.toEntityPlace)) ∈ (build entities entityMeta []).1.knownPaths :=
  List.mem_append_right _ (List.mem_map.2 ⟨(name, m), OrdMap.get?_eq_some_iff.1 h, rfl⟩)

theorem mem_knownPaths_app {r : Router} {p : List String} (h : name ∈ r.appEntities) (hp : p ∈ appPaths name) :
    p ∈ r.knownPaths :=
  List.mem_append_left _ (List.mem_flatMap.2 ⟨name, h, hp⟩)

/-- A path that begins with a known one is neither empty nor that of the health check. -/
theorem Unambiguous.not_reserved {r : Router} (h : Unambiguous r) (hknown : folded segments ∈ r.knownPaths)
    (id : Option String) :
    segments ++ id.toList ≠ [] ∧ segments ++ id.toList ≠ ["health"] ∧ segments ++ id.toList ≠ ["_health"] := by
  have hne : segments ≠ [] := fun hnil => h.nonempty (by rwa [hnil] at hknown)
  have hsingle : ∀ s, segments ++ id.toList = [s] → segments = [s] := by
    intro s heq
    rcases List.append_eq_singleton_iff.1 heq with ⟨hnil, -⟩ | ⟨hs, -⟩
    · exact absurd hnil hne
    · exact hs
  refine ⟨fun hnil => hne (List.append_eq_nil_iff.1 hnil).1, fun hs => ?_, fun hs => ?_⟩
  · rw [hsingle _ hs] at hknown
    exact h.notHealth.1 hknown
  · rw [hsingle _ hs] at hknown
    exact h.notHealth.2 hknown

/-- If what the index knows is the beginning of a path that begins with a known path, the two are the same. -/
theorem collection_eq_of_get?_index {depth : Nat} {found : String}
    (h : Unambiguous (build entities entityMeta []).1)
    (hknown : folded segments ∈ (build entities entityMeta []).1.knownPaths)
    (hsegments : ∀ s ∈ segments ++ rest, IsSegment s)
    (hget : (build entities entityMeta []).1.index.get? (pathKey ((segments ++ rest).take depth)) =
      some found) :
    ∃ m, entityMeta.get? found = some m ∧
      folded (collection found (some m.toEntityPlace)) = folded segments ∧
      ((segments ++ rest).take depth).length = segments.length := by
  obtain ⟨m, hm, hfolded⟩ := of_get?_index (fun s hs => hsegments s (List.mem_of_mem_take hs)) hget
  have hfound : folded ((segments ++ rest).take depth) ∈ (build entities entityMeta []).1.knownPaths := by
    rw [hfolded]; exact mem_knownPaths_plugin entities hm
  have hprefix : folded ((segments ++ rest).take depth) <+: folded (segments ++ rest) :=
    (List.take_prefix _ _).map _
  have hprefix' : folded segments <+: folded (segments ++ rest) := (List.prefix_append _ _).map _
  have heq : folded ((segments ++ rest).take depth) = folded segments := by
    rcases List.prefix_or_prefix_of_prefix hprefix hprefix' with hle | hle
    · exact h.prefixFree _ hfound _ hknown hle
    · exact (h.prefixFree _ hknown _ hfound hle).symm
  refine ⟨m, hm, hfolded.symm.trans heq, ?_⟩
  simpa [folded] using congrArg List.length heq

theorem matchDepth_eq_none {depth : Nat} (h : Unambiguous (build entities entityMeta []).1)
    (hknown : folded segments ∈ (build entities entityMeta []).1.knownPaths)
    (hsegments : ∀ s ∈ segments ++ rest, IsSegment s) (hle : depth ≤ (segments ++ rest).length)
    (hne : depth ≠ segments.length) :
    (build entities entityMeta []).1.matchDepth method (segments ++ rest) depth = none := by
  unfold matchDepth
  cases hget : (build entities entityMeta []).1.index.get? (pathKey ((segments ++ rest).take depth)) with
  | none => rfl
  | some found =>
    obtain ⟨m, -, -, hlength⟩ := collection_eq_of_get?_index h hknown hsegments hget
    rw [List.length_take, Nat.min_eq_left hle] at hlength
    exact absurd hlength hne

/-! ### Entities of plugins -/

theorem eq_of_collection_eq {name' : String} {m' : EntityMeta} (h : Unambiguous (build entities entityMeta []).1)
    (hm : entityMeta.get? name = some m) (hm' : entityMeta.get? name' = some m')
    (heq : folded (collection name (some m.toEntityPlace)) = folded (collection name' (some m'.toEntityPlace))) :
    name = name' := by
  obtain ⟨-, hnodup, -⟩ := List.nodup_append.1 h.nodup
  have hinj := List.inj_on_of_nodup_map hnodup (OrdMap.get?_eq_some_iff.1 hm) (OrdMap.get?_eq_some_iff.1 hm') heq
  exact congrArg Prod.fst hinj

theorem get?_index_collection (h : Unambiguous (build entities entityMeta []).1)
    (hm : entityMeta.get? name = some m) :
    (build entities entityMeta []).1.index.get? (pathKey (collection name (some m.toEntityPlace))) =
      some name := by
  have hsegments : ∀ s ∈ collection name (some m.toEntityPlace), IsSegment s :=
    fun s => isSegment_of_mem_collection
  have hkey : pathKey (collection name (some m.toEntityPlace)) ∈
      (build entities entityMeta []).1.index.keys := by
    rw [index_build, OrdMap.ofList, OrdMap.mem_keys_insertMany, List.map_map]
    exact .inl (List.mem_map.2 ⟨(name, m), OrdMap.get?_eq_some_iff.1 hm, rfl⟩)
  obtain ⟨found, hfound⟩ := Option.isSome_iff_exists.1 (OrdMap.contains_iff_mem_keys.2 hkey)
  obtain ⟨m', hm', hfolded⟩ := of_get?_index hsegments hfound
  rw [hfound, eq_of_collection_eq h hm hm' hfolded]

theorem matchDepth_collection {id : Option String} (h : Unambiguous (build entities entityMeta []).1)
    (hm : entityMeta.get? name = some m) :
    (build entities entityMeta []).1.matchDepth method
        (collection name (some m.toEntityPlace) ++ id.toList) (collection name (some m.toEntityPlace)).length =
      some (matchOperation method name m id) := by
  have hlength : ¬1 < id.toList.length := by cases id <;> simp
  have hmeta : (build entities entityMeta []).1.entityMeta.get? name = some m := hm
  unfold matchDepth
  rw [List.take_left, List.drop_left, get?_index_collection h hm, Option.bind_eq_bind, Option.bind_some]
  dsimp only
  rw [if_neg hlength, hmeta]
  cases id <;> rfl

theorem matchOperation_of_enabled (name : String) {id : Option String} {op : Operation}
    (hop : Operation.ofMethod? method id.isSome = some op) (hpublic : m.isInternal = false)
    (henabled : m.decision op ≠ .disable) :
    ∃ handler, matchOperation method name m id = .entity ⟨name, op, id, some m.pluginId, handler⟩ := by
  unfold matchOperation
  rw [hop, hpublic]
  cases hdecision : m.decision op with
  | standard => exact ⟨none, by simp [hdecision]⟩
  | disable => exact absurd hdecision henabled
  | custom handler => exact ⟨some handler, by simp [hdecision]⟩

theorem matchPluginEntity_of_matchDepth {r : Router} {depth : Nat} {result : RouteMatch} (hpos : 0 < depth)
    (hle : depth ≤ segments.length) (hmax : depth ≤ maxDepth)
    (hbefore : ∀ d, d < depth → r.matchDepth method segments d = none)
    (hresult : r.matchDepth method segments depth = some result) :
    r.matchPluginEntity method segments = some result := by
  obtain ⟨n, rfl⟩ : ∃ n, depth = n + 1 := ⟨depth - 1, by omega⟩
  obtain ⟨k, hk⟩ : ∃ k, min segments.length maxDepth = n + (k + 1) :=
    ⟨min segments.length maxDepth - (n + 1), by omega⟩
  unfold matchPluginEntity
  rw [hk, List.range_add, List.map_append, List.range_succ_eq_map, List.map_cons, List.map_cons]
  refine List.findSome?_eq_some_iff.2 ⟨_, _, _, rfl, hresult, ?_⟩
  rintro d hd
  obtain ⟨d, hmem, rfl⟩ := List.mem_map.1 hd
  exact hbefore _ (by have := List.mem_range.1 hmem; omega)

theorem matchPluginEntity_collection {id : Option String} (h : Unambiguous (build entities entityMeta []).1)
    (hm : entityMeta.get? name = some m) (hid : ∀ s ∈ id.toList, IsSegment s)
    (hmax : (collection name (some m.toEntityPlace)).length ≤ maxDepth) :
    (build entities entityMeta []).1.matchPluginEntity method
        (collection name (some m.toEntityPlace) ++ id.toList) = some (matchOperation method name m id) := by
  have hknown := mem_knownPaths_plugin entities hm
  have hsegments : ∀ s ∈ collection name (some m.toEntityPlace) ++ id.toList, IsSegment s := by
    intro s hs
    rcases List.mem_append.1 hs with hs | hs
    · exact isSegment_of_mem_collection hs
    · exact hid s hs
  have hpos : 0 < (collection name (some m.toEntityPlace)).length := by
    refine List.length_pos_iff.2 fun hnil => h.nonempty ?_
    rwa [hnil] at hknown
  have hle : (collection name (some m.toEntityPlace)).length ≤
      (collection name (some m.toEntityPlace) ++ id.toList).length := by simp
  refine matchPluginEntity_of_matchDepth hpos hle hmax (fun d hd => ?_) (matchDepth_collection h hm)
  exact matchDepth_eq_none h hknown hsegments (by omega) (by omega)

/-! ### Entities of the application -/

/-- No beginning of a path below the collection of an application entity is the path of a plugin entity. -/
theorem get?_index_take_eq_none (h : Unambiguous (build entities entityMeta []).1)
    (hname : name ∈ (build entities entityMeta []).1.appEntities)
    (hsegments : ∀ s ∈ collection name none ++ rest, IsSegment s) (depth : Nat) :
    (build entities entityMeta []).1.index.get? (pathKey ((collection name none ++ rest).take depth)) = none := by
  have hknown := mem_knownPaths_app hname (p := folded (collection name none)) List.mem_cons_self
  refine Option.eq_none_iff_forall_ne_some.2 fun found hget => ?_
  -- a path of an application entity is no path of a plugin entity
  obtain ⟨m, hm, hfolded, -⟩ := collection_eq_of_get?_index h hknown hsegments hget
  obtain ⟨-, -, hdisjoint⟩ := List.nodup_append.1 h.nodup
  refine hdisjoint _ ?_ _ ?_ hfolded.symm
  · exact List.mem_flatMap.2 ⟨name, hname, List.mem_cons_self⟩
  · exact List.mem_map.2 ⟨(found, m), OrdMap.get?_eq_some_iff.1 hm, rfl⟩

theorem matchPluginEntity_eq_none (h : Unambiguous (build entities entityMeta []).1)
    (hname : name ∈ (build entities entityMeta []).1.appEntities)
    (hsegments : ∀ s ∈ collection name none ++ rest, IsSegment s) :
    (build entities entityMeta []).1.matchPluginEntity method (collection name none ++ rest) = none := by
  unfold matchPluginEntity
  rw [List.findSome?_eq_none_iff]
  intro depth hdepth
  unfold matchDepth
  rw [get?_index_take_eq_none h hname hsegments]
  rfl

theorem slash_not_mem_plural (h : '/' ∉ name.toList) : '/' ∉ (Naming.plural name).toList := by
  have hrev : '/' ∉ name.toList.reverse := by simpa using h
  rw [Naming.plural, String.toList_ofList, List.mem_reverse]
  unfold Naming.pluralRev
  split
  · simp
  · split
    · have hdrop : '/' ∉ name.toList.reverse.drop 1 := fun hmem => hrev (List.mem_of_mem_drop hmem)
      simpa using hdrop
    · split <;> simpa using h

theorem collection_app {r : Router} (h : Unambiguous r) (hname : name ∈ r.appEntities)
    (hslash : '/' ∉ name.toList) : collection name none = [Naming.plural name] := by
  have hcollection : collection name none = pathSegments (Naming.plural name) := pathSegments_slash _
  rw [hcollection]
  refine pathSegments_of_isSegment ⟨fun hempty => h.nonempty ?_, slash_not_mem_plural hslash⟩
  have hknown := mem_knownPaths_app hname (p := folded (collection name none)) List.mem_cons_self
  rwa [hcollection, hempty] at hknown

theorem Unambiguous.eq_of_mem_appPaths {r : Router} {name' : String} {p : List String} (h : Unambiguous r)
    (hname : name ∈ r.appEntities) (hname' : name' ∈ r.appEntities) (hp : p ∈ appPaths name)
    (hp' : p ∈ appPaths name') : name = name' := by
  obtain ⟨hnodup, -, -⟩ := List.nodup_append.1 h.nodup
  obtain ⟨-, hdisjoint⟩ := List.nodup_flatMap.1 hnodup
  have hsymm : Std.Symm (Function.onFun List.Disjoint appPaths) := ⟨fun _ _ hd _ hp hp' => hd hp' hp⟩
  by_contra hne
  exact hdisjoint.forall hname hname' hne hp hp'

theorem find?_answersTo {r : Router} (h : Unambiguous r) (hname : name ∈ r.appEntities)
    (hslash : ∀ name ∈ r.appEntities, '/' ∉ name.toList) :
    r.appEntities.find? (answersTo (Text.lower (Naming.plural name))) = some name := by
  have hself : answersTo (Text.lower (Naming.plural name)) name = true := by simp [answersTo]
  obtain ⟨found, hfound⟩ := Option.isSome_iff_exists.1 (List.find?_isSome.2 ⟨name, hname, hself⟩)
  have hmem := List.mem_of_find?_eq_some hfound
  have hanswers := List.find?_some hfound
  simp only [answersTo, Bool.or_eq_true, beq_iff_eq] at hanswers
  -- what `found` answers to is one of its paths, and one of those of `name` as well
  have hpath : [Text.lower (Naming.plural name)] ∈ appPaths found := by
    rw [appPaths, collection_app h hmem (hslash found hmem)]
    rcases hanswers with hplural | hlower
    · simp [folded, hplural]
    · simp [hlower]
  have hpath' : [Text.lower (Naming.plural name)] ∈ appPaths name := by
    rw [appPaths, collection_app h hname (hslash name hname)]
    simp [folded]
  rw [hfound, h.eq_of_mem_appPaths hmem hname hpath hpath']

theorem matchAppEntity_collection {r : Router} {id : Option String} (h : Unambiguous r)
    (hname : name ∈ r.appEntities) (hslash : ∀ name ∈ r.appEntities, '/' ∉ name.toList) :
    r.matchAppEntity method (collection name none ++ id.toList) =
      match Operation.ofMethod? method id.isSome with
      | some op => .entity ⟨name, op, id, none, none⟩
      | none => .notFound := by
  have hlength : ¬1 < id.toList.length := by cases id <;> simp
  rw [collection_app h hname (hslash name hname)]
  unfold matchAppEntity
  dsimp only [List.singleton_append]
  rw [if_neg hlength, find?_answersTo h hname hslash]
  cases id <;> rfl

end

/-! ### Listed operations -/

section

variable {entities : List String} {entityMeta : OrdMap String EntityMeta} {info : RouteInfo} {id : String}

theorem isSegment_of_mem_idOf {op : Operation} {s : String} (hid : IsSegment id)
    (hs : s ∈ (op.idOf id).toList) : IsSegment s := by
  unfold Operation.idOf at hs
  split at hs
  · obtain rfl : s = id := by simpa using hs
    exact hid
  · simp at hs

/-- A request for an operation on an entity whose path is known is left to the entities. -/
theorem matchRequest_pathFor {name : String} {m : Option EntityMeta}
    (h : Unambiguous (build entities entityMeta []).1)
    (hknown : folded (collection name (m.map (·.toEntityPlace))) ∈ (build entities entityMeta []).1.knownPaths)
    (op : Operation) (hid : IsSegment id) :
    (build entities entityMeta []).1.matchRequest op.method ((infoOf name m op).pathFor id) =
      ((build entities entityMeta []).1.matchPluginEntity op.method
        (collection name (m.map (·.toEntityPlace)) ++ (op.idOf id).toList)).getD
          ((build entities entityMeta []).1.matchAppEntity op.method
            (collection name (m.map (·.toEntityPlace)) ++ (op.idOf id).toList)) := by
  have hpath := pathSegments_pathFor name m op hid
  obtain ⟨hne, hhealth, hhealth'⟩ := h.not_reserved hknown (op.idOf id)
  rw [matchRequest_of_no_routes rfl (by rwa [hpath]) (by rwa [hpath]) (by rwa [hpath]), hpath]

/-- Where no route of a plugin is in the way and no path is too long, a request for a listed operation leads
to it, with the id that stands in the path. -/
theorem matchRequest_infos (h : Unambiguous (build entities entityMeta []).1)
    (hmax : ∀ name m, entityMeta.get? name = some m →
      (collection name (some m.toEntityPlace)).length ≤ maxDepth)
    (hslash : ∀ name ∈ (build entities entityMeta []).1.appEntities, '/' ∉ name.toList)
    (hinfo : info ∈ (build entities entityMeta []).1.infos) (hid : IsSegment id) :
    ∃ handler, (build entities entityMeta []).1.matchRequest info.method (info.pathFor id) =
      .entity ⟨info.entity, info.operation, info.operation.idOf id, info.pluginId, handler⟩ := by
  rcases mem_infos.1 hinfo with ⟨name, hname, op, rfl⟩ | ⟨name, m, op, hm, hpublic, henabled, rfl⟩
  · have hknown := mem_knownPaths_app hname (p := folded (collection name none)) List.mem_cons_self
    have hmatch := matchRequest_pathFor (m := none) h hknown op hid
    have hsegments : ∀ s ∈ collection name none ++ (op.idOf id).toList, IsSegment s := fun s hs =>
      (List.mem_append.1 hs).elim isSegment_of_mem_collection (isSegment_of_mem_idOf hid)
    rw [Option.map_none, matchPluginEntity_eq_none h hname hsegments, Option.getD_none,
      matchAppEntity_collection h hname hslash, op.ofMethod?_method] at hmatch
    exact ⟨none, hmatch⟩
  · have hknown := mem_knownPaths_plugin entities hm
    have hmatch := matchRequest_pathFor (m := some m) h hknown op hid
    have hsegments : ∀ s ∈ (op.idOf id).toList, IsSegment s := fun s hs => isSegment_of_mem_idOf hid hs
    obtain ⟨handler, hoperation⟩ :=
      matchOperation_of_enabled name (op.ofMethod?_method id) hpublic henabled
    rw [Option.map_some, matchPluginEntity_collection h hm hsegments (hmax name m hm), Option.getD_some,
      hoperation] at hmatch
    exact ⟨handler, hmatch⟩

end

/-- Posts of the application and keys of a plugin, three segments deep: a post and a key are reached with
their ids. -/
theorem matchRequest_infos_keys :
    let r := (build ["post"] keysMeta []).1
    Unambiguous r ∧
      (∃ handler, r.matchRequest "GET" "/posts/1" = .entity ⟨"post", .read, some "1", none, handler⟩) ∧
      ∃ handler, r.matchRequest "PATCH" "/v1/auth/keys/1" =
        .entity ⟨"apiKey", .update, some "1", some "auth", handler⟩ := by
  intro r
  have hknown : r.knownPaths = [["posts"], ["post"], ["v1", "auth", "keys"]] := rfl
  have hunambiguous : Unambiguous r := by constructor <;> rw [hknown] <;> decide
  have hmax : ∀ name m, keysMeta.get? name = some m →
      (collection name (some m.toEntityPlace)).length ≤ maxDepth := by
    intro name m hm
    have hmem : (name, m) ∈ keysMeta.toList := OrdMap.get?_eq_some_iff.1 hm
    obtain ⟨rfl, rfl⟩ := Prod.mk.inj (List.mem_singleton.1 hmem)
    decide
  have hslash : ∀ name ∈ r.appEntities, '/' ∉ name.toList := by decide
  have hid : IsSegment "1" := by constructor <;> decide
  have hpostInfo : infoOf "post" none .read ∈ r.infos :=
    mem_infos.2 (.inl ⟨"post", List.mem_singleton_self _, .read, rfl⟩)
  have hkeyInfo : infoOf "apiKey" (keysMeta.get? "apiKey") .update ∈ r.infos :=
    mem_infos.2 (.inr ⟨"apiKey", _, .update, rfl, rfl, nofun, rfl⟩)
  have hpost := matchRequest_infos hunambiguous hmax hslash hpostInfo hid
  have hkey := matchRequest_infos hunambiguous hmax hslash hkeyInfo hid
  have hpostPath : (infoOf "post" none .read).pathFor "1" = "/posts/1" := rfl
  have hkeyPath : (infoOf "apiKey" (keysMeta.get? "apiKey") .update).pathFor "1" = "/v1/auth/keys/1" := rfl
  rw [hpostPath] at hpost
  rw [hkeyPath] at hkey
  exact ⟨hunambiguous, hpost, hkey⟩

/-- Keys of a plugin under a base path of three segments. -/
def deepMeta : OrdMap String EntityMeta :=
  OrdMap.ofList
    [("apiKey",
      { declaredName := "apiKey", pluginId := "auth", basePath := some "/api/v1/auth", routePath := none
        isInternal := false, routeConfig := none })]

/-- A collection path of four segments is listed and not served, and neither is that of an entity of the
application with a slash in its name. -/
theorem notFound_of_long_paths :
    let r := (build ["apiKey", "a/b"] deepMeta []).1
    Unambiguous r ∧
      (∃ info ∈ r.infos, info.path = "/api/v1/auth/apiKeys" ∧
        r.matchRequest info.method (info.pathFor "1") = .notFound) ∧
      ∃ info ∈ r.infos, info.path = "/a/bs" ∧ r.matchRequest info.method (info.pathFor "1") = .notFound := by
  intro r
  have hknown : r.knownPaths = [["a", "bs"], ["a/b"], ["api", "v1", "auth", "apikeys"]] := rfl
  refine ⟨by constructor <;> rw [hknown] <;> decide, ?_, ?_⟩
  · exact ⟨infoOf "apiKey" (deepMeta.get? "apiKey") .list,
      mem_infos.2 (.inr ⟨"apiKey", _, .list, rfl, rfl, nofun, rfl⟩), rfl, rfl⟩
  · exact ⟨infoOf "a/b" none .list, mem_infos.2 (.inl ⟨"a/b", List.mem_singleton_self _, .list, rfl⟩), rfl, rfl⟩

end Router

end EntityRest
