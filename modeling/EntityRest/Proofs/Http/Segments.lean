import EntityRest.Http.Message
import EntityRest.Proofs.Text.Items

/-! # The segments of a path

A path that is put together from two with a slash between them has the segments of both, one after the
other (`pathSegments_join`). No segment is empty or holds a slash, and such a text is a path of one
segment. -/

namespace EntityRest

/-- A text that can be one segment of a path. -/
def IsSegment (s : String) : Prop := s ≠ "" ∧ '/' ∉ s.toList

instance : DecidablePred IsSegment := fun s => inferInstanceAs (Decidable (s ≠ "" ∧ '/' ∉ s.toList))

theorem isSegment_of_mem_pathSegments {path s : String} (h : s ∈ pathSegments path) : IsSegment s := by
  obtain ⟨piece, hpiece, rfl⟩ := List.mem_map.1 h
  obtain ⟨hmem, hne⟩ := List.mem_filter.1 hpiece
  constructor
  · intro heq
    have hnil : piece = [] := by simpa using congrArg String.toList heq
    simp [hnil] at hne
  · rw [String.toList_ofList]
    exact Text.not_mem_of_mem_splitOn hmem

theorem pathSegments_of_isSegment {s : String} (h : IsSegment s) : pathSegments s = [s] := by
  have hne : s.toList ≠ [] := fun heq => h.1 (String.toList_inj.1 (by rw [heq, String.toList_empty]))
  unfold pathSegments
  rw [Text.splitOn_of_not_mem h.2]
  simp [hne, String.ofList_toList]

/-- Joining two paths with a slash joins their segments. -/
theorem pathSegments_join (path path' : String) :
    pathSegments (path ++ "/" ++ path') = pathSegments path ++ pathSegments path' := by
  have hjoin : (path ++ "/" ++ path').toList = path.toList ++ '/' :: path'.toList := by
    simp [String.toList_append]
  unfold pathSegments
  rw [hjoin, Text.splitOn_append_cons, List.filter_append, List.map_append]

theorem pathSegments_empty : pathSegments "" = [] := rfl

theorem pathSegments_slash (path : String) : pathSegments ("/" ++ path) = pathSegments path :=
  pathSegments_join "" path

end EntityRest
