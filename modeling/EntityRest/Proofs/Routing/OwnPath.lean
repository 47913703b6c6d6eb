import EntityRest.Proofs.Routing.Completeness

/-! # Entities with a path of their own

If nothing else claims the collection path of an entity of the application or a path below it (`OwnsPath`), then
every path of one more segment leads to the record that this segment names (`matchRequest_ownPath`). The segment
is passed on letter by letter. Where paths are told apart by their segments, every entity of the application has
a path of its own (`Unambiguous.ownsPath`). -/

namespace EntityRest.Router

/-- The collection path of an entity is one segment, and leads to nothing but this entity. -/
structure OwnsPath (r : Router) (name : String) : Prop where
  routes : r.routes = []
  isSegment : IsSegment name
  entity : r.appEntities.find? (answersTo (Text.lower (Naming.plural name))) = some name
  index : ∀ rest, (∀ s ∈ rest, IsSegment s) → r.index.get? (pathKey (Naming.plural name :: rest)) = none

variable {r : Router} {name segment method : String}

theorem isSegment_plural (h : IsSegment name) : IsSegment (Naming.plural name) := by
  refine ⟨fun hempty => ?_, slash_not_mem_plural h.2⟩
  have hne : name.toList.reverse ≠ [] := by simpa using h.1
  have hrev : (Naming.pluralRev name.toList.reverse).reverse = [] := by
    simpa [Naming.plural] using congrArg String.toList hempty
  rw [List.reverse_eq_nil_iff, Naming.pluralRev, if_neg hne] at hrev
  split at hrev
  · cases hrev
  · split at hrev <;> cases hrev

theorem collection_of_isSegment (h : IsSegment name) : collection name none = [Naming.plural name] :=
  (pathSegments_slash _).trans (pathSegments_of_isSegment (isSegment_plural h))

theorem pathSegments_record (hname : IsSegment name) (hsegment : IsSegment segment) :
    pathSegments (entityPath name none ++ "/" ++ segment) = [Naming.plural name, segment] := by
  have hcollection : pathSegments (entityPath name none) = [Naming.plural name] := collection_of_isSegment hname
  rw [pathSegments_join, hcollection, pathSegments_of_isSegment hsegment]
  rfl

theorem OwnsPath.matchPluginEntity (h : r.OwnsPath name) {rest : List String} (hrest : ∀ s ∈ rest, IsSegment s) :
    r.matchPluginEntity method (Naming.plural name :: rest) = none := by
  refine List.findSome?_eq_none_iff.2 fun depth hdepth => ?_
  obtain ⟨n, -, rfl⟩ := List.mem_map.1 hdepth
  unfold matchDepth
  rw [List.take_succ_cons, h.index _ fun s hs => hrest s (List.mem_of_mem_take hs)]
  rfl

theorem OwnsPath.matchAppEntity (h : r.OwnsPath name) {op : Operation}
    (hop : Operation.ofMethod? method true = some op) :
    r.matchAppEntity method [Naming.plural name, segment] = .entity ⟨name, op, some segment, none, none⟩ := by
  have hlength : ¬1 < [segment].length := Nat.lt_irrefl 1
  unfold Router.matchAppEntity
  dsimp only
  rw [if_neg hlength, h.entity]
  dsimp only [List.head?_cons, Option.isSome_some]
  rw [hop]

/-- A path below that of the collection leads to the record whose id is its last segment, as it is written. -/
theorem matchRequest_ownPath (h : r.OwnsPath name) (hsegment : IsSegment segment) {op : Operation}
    (hop : Operation.ofMethod? method true = some op) :
    r.matchRequest method (entityPath name none ++ "/" ++ segment) =
      .entity ⟨name, op, some segment, none, none⟩ := by
  have hsegments := pathSegments_record h.isSegment hsegment
  have hrest : ∀ s ∈ [segment], IsSegment s := List.forall_mem_singleton.2 hsegment
  rw [matchRequest_of_no_routes h.routes (by simp [hsegments]) (by simp [hsegments]) (by simp [hsegments]),
    hsegments, h.matchPluginEntity hrest, Option.getD_none, h.matchAppEntity hop]

theorem Unambiguous.ownsPath {entities : List String} {entityMeta : OrdMap String EntityMeta}
    (h : Unambiguous (build entities entityMeta []).1) (hname : name ∈ (build entities entityMeta []).1.appEntities)
    (hslash : ∀ name ∈ (build entities entityMeta []).1.appEntities, '/' ∉ name.toList) :
    (build entities entityMeta []).1.OwnsPath name where
  routes := rfl
  isSegment := by
    refine ⟨?_, hslash name hname⟩
    rintro rfl
    -- the empty name would have the empty path
    exact h.nonempty (mem_knownPaths_app hname List.mem_cons_self)
  entity := find?_answersTo h hname hslash
  index rest hrest := by
    have hcollection := collection_app h hname (hslash name hname)
    have hsegments : ∀ s ∈ collection name none ++ rest, IsSegment s := fun s hs =>
      (List.mem_append.1 hs).elim isSegment_of_mem_collection (hrest s)
    have hnone := get?_index_take_eq_none h hname hsegments (rest.length + 1)
    rwa [hcollection, List.singleton_append, List.take_succ_cons, List.take_length] at hnone

end EntityRest.Router
