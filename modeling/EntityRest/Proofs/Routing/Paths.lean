import EntityRest.Proofs.Data.Entries
import EntityRest.Proofs.Text.LowerCase
import EntityRest.Routing.Router

/-! # Paths of entities

Paths are compared as texts in lower case, and this is the same as comparing them segment by segment
(`folded_eq_of_pathKey_eq`). What the index holds under the path of a request is therefore an entity whose
collection path has the same segments up to case (`of_get?_index`). -/

namespace EntityRest.Router

/-- Segments in lower case, the form in which they are compared. -/
def folded (segments : List String) : List String := segments.map Text.lower

/-- The segments of the collection path of an entity. -/
def collection (name : String) (place : Option EntityPlace) : List String :=
  pathSegments (entityPath name place)

theorem isSegment_of_mem_collection {name s : String} {place : Option EntityPlace}
    (h : s ∈ collection name place) : IsSegment s :=
  isSegment_of_mem_pathSegments h

section Keys

variable {segments segments' : List String}

theorem pathSegments_pathKey (h : ∀ s ∈ segments, IsSegment s) :
    pathSegments (pathKey segments) = folded segments := by
  induction segments with
  | nil => rfl
  | cons s segments ih =>
    have hs : pathSegments (Text.lower s) = [Text.lower s] :=
      pathSegments_of_isSegment (Text.isSegment_lower (h s List.mem_cons_self))
    cases segments with
    | nil => exact hs
    | cons t segments =>
      have hjoin : pathKey (s :: t :: segments) = Text.lower s ++ "/" ++ pathKey (t :: segments) := by
        rw [pathKey, String.intercalate_cons_cons, Text.lower_join]
        rfl
      rw [hjoin, pathSegments_join, hs, ih fun u hu => h u (List.mem_cons_of_mem _ hu)]
      rfl

theorem folded_eq_of_pathKey_eq (h : ∀ s ∈ segments, IsSegment s) (h' : ∀ s ∈ segments', IsSegment s)
    (hkey : pathKey segments = pathKey segments') : folded segments = folded segments' := by
  rw [← pathSegments_pathKey h, ← pathSegments_pathKey h', hkey]

end Keys

section Index

variable {entities : List String} {entityMeta : OrdMap String EntityMeta} {routes : List Route}

theorem index_build : (build entities entityMeta routes).1.index =
    OrdMap.ofList (entityMeta.toList.map fun e => (pathKey (collection e.1 (some e.2.toEntityPlace)), e.1)) := by
  have hfold : ∀ (l : List (String × EntityMeta)) (i : OrdMap String String × List Warning),
      (l.foldl (fun i e => addToIndex i e.1 e.2) i).1 =
        i.1.insertMany (l.map fun e => (pathKey (collection e.1 (some e.2.toEntityPlace)), e.1)) := by
    intro l
    induction l with
    | nil => exact fun i => rfl
    | cons e l ih => exact fun i => ih (addToIndex i e.1 e.2)
  exact hfold entityMeta.toList (∅, [])

theorem of_get?_index_eq {key name : String}
    (h : (build entities entityMeta routes).1.index.get? key = some name) :
    ∃ m, entityMeta.get? name = some m ∧ pathKey (collection name (some m.toEntityPlace)) = key := by
  rw [index_build] at h
  rcases OrdMap.mem_of_get?_insertMany h with hmem | hget
  · obtain ⟨⟨name', m⟩, hm, heq⟩ := List.mem_map.1 hmem
    obtain ⟨hkey, rfl⟩ := Prod.mk.inj heq
    exact ⟨m, OrdMap.get?_eq_some_iff.2 hm, hkey⟩
  · cases hget

theorem of_get?_index {segments : List String} {name : String} (hsegments : ∀ s ∈ segments, IsSegment s)
    (h : (build entities entityMeta routes).1.index.get? (pathKey segments) = some name) :
    ∃ m, entityMeta.get? name = some m ∧
      folded segments = folded (collection name (some m.toEntityPlace)) := by
  obtain ⟨m, hm, hkey⟩ := of_get?_index_eq h
  have hcollection : ∀ s ∈ collection name (some m.toEntityPlace), IsSegment s :=
    fun s hs => isSegment_of_mem_collection hs
  exact ⟨m, hm, folded_eq_of_pathKey_eq hsegments hcollection hkey.symm⟩

end Index

end EntityRest.Router
