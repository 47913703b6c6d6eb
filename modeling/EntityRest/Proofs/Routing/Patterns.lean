import EntityRest.Routing.Pattern
import EntityRest.Proofs.Data.Entries
import EntityRest.Proofs.Http.Segments

/-! # Patterns of paths, matched and filled in

A pattern matches the paths that filling in its parameters gives, and what is captured fills it in again. If
its parameters have different names, the values are found one by one: a path that matches is the pattern with
some values filled in (`exists_values_of_matchSegments`), and from such a path these values are captured
(`matchSegments_map_text`). Both directions of the round trip follow (`matchPath?_roundTrip`). Slashes that
stand twice or at an end do not count, neither in the pattern nor in the path. -/

namespace EntityRest.Pattern

/-- What stands for a segment in a path, given what stands for the parameters. -/
def Segment.text (values : String → String) : Segment → String
  | .fixed text => text
  | .param name => values name

def Segment.name? : Segment → Option String
  | .fixed _ => none
  | .param name => some name

/-- The names of the parameters among segments, in their order. -/
def names (segments : List Segment) : List String := segments.filterMap Segment.name?

/-- The names of the parameters of a pattern. -/
def paramNames (pattern : String) : List String := names (segmentsOf pattern)

/-- A piece of a pattern between slashes, which may be empty, with its parameter filled in. -/
def fillPiece (params : OrdMap String String) (piece : List Char) : String :=
  (Segment.ofText (String.ofList piece)).text (params.getD · "")

/-- A pattern as a path, with its parameters filled in; what else it is made of stays. -/
def instantiate (params : OrdMap String String) (pattern : String) : String :=
  "/".intercalate ((Text.splitOn '/' pattern.toList).map (fillPiece params))

/-! ### Segments -/

section Segments

variable {values values' : String → String} {segments : List Segment} {path : List String}
  {params result : OrdMap String String}

theorem fill_eq_map_text (params : OrdMap String String) (segments : List Segment) :
    fill params segments = segments.map (Segment.text (params.getD · "")) := by
  refine List.map_congr_left fun segment _ => ?_
  cases segment <;> rfl

theorem map_text_congr (h : ∀ name ∈ names segments, values name = values' name) :
    segments.map (Segment.text values) = segments.map (Segment.text values') := by
  refine List.map_congr_left fun segment hsegment => ?_
  cases segment with
  | fixed text => rfl
  | param name => exact h name (List.mem_filterMap.2 ⟨.param name, hsegment, rfl⟩)

/-- What is filled in is captured. -/
theorem matchSegments_map_text (params : OrdMap String String) (values : String → String)
    (segments : List Segment) : matchSegments params segments (segments.map (Segment.text values)) =
      some (params.insertMany ((names segments).map fun name => (name, values name))) := by
  induction segments generalizing params with
  | nil => rfl
  | cons segment segments ih =>
    cases segment with
    | fixed text =>
      show (if text = text then _ else none) = _
      rw [if_pos rfl]
      exact ih params
    | param name => exact ih (params.insert name (values name))

/-- A path that matches is made of the pattern. -/
theorem exists_values_of_matchSegments (hnodup : (names segments).Nodup)
    (h : matchSegments params segments path = some result) :
    ∃ values, segments.map (Segment.text values) = path := by
  induction segments generalizing params path with
  | nil =>
    cases path with
    | nil => exact ⟨id, rfl⟩
    | cons s path => cases h
  | cons segment segments ih =>
    cases path with
    | nil => cases segment <;> cases h
    | cons s path =>
      cases segment with
      | fixed text =>
        rw [matchSegments] at h
        split at h
        · next heq =>
          obtain ⟨values, hvalues⟩ := ih hnodup h
          exact ⟨values, by rw [List.map_cons, hvalues, ← heq]; rfl⟩
        · cases h
      | param name =>
        obtain ⟨hname, hrest⟩ := List.nodup_cons.1 (show (name :: names segments).Nodup from hnodup)
        obtain ⟨values, hvalues⟩ := ih hrest h
        -- no later parameter has this name, so it may stand for `s`
        refine ⟨fun name' => if name' = name then s else values name', ?_⟩
        rw [List.map_cons, ← hvalues]
        refine congrArg₂ _ (if_pos rfl) (map_text_congr fun name' hname' => if_neg ?_)
        rintro rfl
        exact hname hname'

theorem matchSegments_eq_some_iff (hnodup : (names segments).Nodup) :
    matchSegments ∅ segments path = some result ↔
      ∃ values, segments.map (Segment.text values) = path ∧
        result.toList = (names segments).map fun name => (name, values name) := by
  have hcaptured : ∀ values : String → String,
      (OrdMap.ofList ((names segments).map fun name => (name, values name))).toList =
        (names segments).map fun name => (name, values name) := by
    intro values
    have hkeys : ((names segments).map fun name => (name, values name)).map Prod.fst = names segments := by
      rw [List.map_map]
      exact List.map_id _
    exact OrdMap.toList_insertMany_of_disjoint (by rwa [hkeys]) fun name _ => List.not_mem_nil
  constructor
  · intro h
    obtain ⟨values, rfl⟩ := exists_values_of_matchSegments hnodup h
    rw [matchSegments_map_text] at h
    exact ⟨values, rfl, (congrArg OrdMap.toList (Option.some.inj h)).symm.trans (hcaptured values)⟩
  · rintro ⟨values, rfl, hresult⟩
    rw [matchSegments_map_text]
    exact congrArg some (OrdMap.ext ((hcaptured values).trans hresult.symm))

theorem keys_of_matchSegments (hnodup : (names segments).Nodup)
    (h : matchSegments ∅ segments path = some result) : result.keys = names segments := by
  obtain ⟨values, -, hresult⟩ := (matchSegments_eq_some_iff hnodup).1 h
  rw [OrdMap.keys, hresult, List.map_map]
  exact List.map_id _

theorem fill_of_matchSegments (hnodup : (names segments).Nodup)
    (h : matchSegments ∅ segments path = some result) : fill result segments = path := by
  obtain ⟨values, rfl, hresult⟩ := (matchSegments_eq_some_iff hnodup).1 h
  rw [fill_eq_map_text]
  refine map_text_congr fun name hname => ?_
  have hget : result.get? name = some (values name) := by
    rw [OrdMap.get?_eq_some_iff, hresult]
    exact List.mem_map.2 ⟨name, hname, rfl⟩
  rw [OrdMap.getD, hget]
  rfl

theorem matchSegments_fill (hkeys : params.keys = names segments) :
    matchSegments ∅ segments (fill params segments) = some params := by
  have hnodup : (names segments).Nodup := hkeys ▸ params.nodup_keys
  rw [matchSegments_eq_some_iff hnodup, fill_eq_map_text]
  exact ⟨_, rfl, by rw [← hkeys]; exact params.toList_eq_map_keys ""⟩

end Segments

/-! ### Texts -/

section Texts

variable {params : OrdMap String String} {pattern : String} {piece : List Char}

theorem isSegment_text {values : String → String} {s : String} (hs : IsSegment s)
    (hvalue : ∀ name, Segment.ofText s = .param name → IsSegment (values name)) :
    IsSegment ((Segment.ofText s).text values) := by
  unfold Segment.ofText at hvalue ⊢
  split
  · next name heq => exact hvalue _ (by simp [heq])
  · exact hs

variable (h : ∀ name ∈ paramNames pattern, IsSegment (params.getD name ""))

include h

theorem isSegment_fillPiece (hpiece : piece ∈ Text.splitOn '/' pattern.toList) (hne : piece ≠ []) :
    IsSegment (fillPiece params piece) := by
  have hsegment : String.ofList piece ∈ pathSegments pattern :=
    List.mem_map.2 ⟨piece, List.mem_filter.2 ⟨hpiece, decide_eq_true hne⟩, rfl⟩
  refine isSegment_text (isSegment_of_mem_pathSegments hsegment) fun name hname => ?_
  exact h name (List.mem_filterMap.2 ⟨_, List.mem_map.2 ⟨_, hsegment, hname⟩, rfl⟩)

/-- A piece is empty if and only if it was before its parameter was filled in. -/
theorem toList_fillPiece_eq_nil_iff (hpiece : piece ∈ Text.splitOn '/' pattern.toList) :
    (fillPiece params piece).toList = [] ↔ piece = [] := by
  by_cases hne : piece = []
  · subst hne; exact Iff.rfl
  · refine iff_of_false (fun heq => ?_) hne
    exact (isSegment_fillPiece h hpiece hne).1 (String.toList_eq_nil_iff.1 heq)

theorem splitOn_instantiate : Text.splitOn '/' (instantiate params pattern).toList =
    (Text.splitOn '/' pattern.toList).map fun piece => (fillPiece params piece).toList := by
  rw [instantiate, String.toList_intercalate, List.map_map]
  refine Text.splitOn_intercalate (by simp [Text.splitOn_ne_nil]) (List.forall_mem_map.2 fun piece hpiece => ?_)
  by_cases hne : piece = []
  · subst hne; exact List.not_mem_nil
  · exact (isSegment_fillPiece h hpiece hne).2

/-- The segments of a filled-in pattern are the filled-in segments of the pattern. -/
theorem pathSegments_instantiate :
    pathSegments (instantiate params pattern) = fill params (segmentsOf pattern) := by
  let pieces := Text.splitOn '/' pattern.toList
  have hkeep : ∀ piece ∈ pieces, decide ((fillPiece params piece).toList ≠ []) = decide (piece ≠ []) :=
    fun piece hpiece => decide_eq_decide.2 (not_congr (toList_fillPiece_eq_nil_iff h hpiece))
  calc pathSegments (instantiate params pattern)
    _ = ((pieces.map fun piece => (fillPiece params piece).toList).filter (· ≠ [])).map String.ofList := by
      rw [pathSegments, splitOn_instantiate h]
    _ = (pieces.filter (· ≠ [])).map (fillPiece params) := by
      rw [List.filter_map, List.map_map]
      refine (List.map_congr_left fun piece _ => String.ofList_toList).trans ?_
      exact congrArg (List.map (fillPiece params)) (List.filter_congr hkeep)
    _ = fill params (segmentsOf pattern) := by
      rw [fill_eq_map_text, segmentsOf, pathSegments, List.map_map, List.map_map]
      rfl

end Texts

/-- Matching and filling in undo each other: a pattern matches the paths that it can be filled in to, what is
captured fills it in to the path, and the values that it is filled in with are captured. -/
theorem matchPath?_roundTrip {pattern : String} (hnodup : (paramNames pattern).Nodup) :
    (∀ path, (∃ params, matchPath? pattern path = some params) ↔
      ∃ values : String → String, (segmentsOf pattern).map (Segment.text values) = pathSegments path) ∧
    (∀ path params, matchPath? pattern path = some params →
      params.keys = paramNames pattern ∧ fill params (segmentsOf pattern) = pathSegments path) ∧
    ∀ params : OrdMap String String, params.keys = paramNames pattern → (∀ v ∈ params.values, IsSegment v) →
      matchPath? pattern (instantiate params pattern) = some params ∧
        ∀ path, pathSegments path = fill params (segmentsOf pattern) → matchPath? pattern path = some params := by
  refine ⟨fun path => ?_, fun path params h => ?_, fun params hkeys hvalues => ?_⟩
  · constructor
    · rintro ⟨params, h⟩
      exact exists_values_of_matchSegments hnodup h
    · rintro ⟨values, hvalues⟩
      exact ⟨_, by rw [matchPath?, ← hvalues, matchSegments_map_text]⟩
  · exact ⟨keys_of_matchSegments hnodup h, fill_of_matchSegments hnodup h⟩
  · have hsegment : ∀ name ∈ paramNames pattern, IsSegment (params.getD name "") := by
      intro name hname
      obtain ⟨⟨name, v⟩, he, rfl⟩ := List.mem_map.1 (show name ∈ params.keys from hkeys ▸ hname)
      rw [OrdMap.getD, OrdMap.get?_eq_some_iff.2 he]
      exact hvalues v (List.mem_map.2 ⟨_, he, rfl⟩)
    have hmatch : ∀ path, pathSegments path = fill params (segmentsOf pattern) →
        matchPath? pattern path = some params := by
      intro path hpath
      rw [matchPath?, hpath]
      exact matchSegments_fill hkeys
    exact ⟨hmatch _ (pathSegments_instantiate hsegment), hmatch⟩

/-- A pattern with slashes to spare. -/
def postPattern : String := "/users/:id//posts/:postId/"

/-- Values of its parameters, one of which looks like a parameter itself. -/
def postParams : OrdMap String String := OrdMap.ofList [("id", ":id"), ("postId", "7")]

theorem matchPath?_roundTrip_posts :
    (paramNames postPattern).Nodup ∧ postParams.keys = paramNames postPattern ∧
      (∀ v ∈ postParams.values, IsSegment v) ∧
      instantiate postParams postPattern = "/users/:id//posts/7/" ∧
      matchPath? postPattern (instantiate postParams postPattern) = some postParams ∧
      fill postParams (segmentsOf postPattern) = pathSegments "users/:id/posts//7" := by
  have hnodup : (paramNames postPattern).Nodup := by decide
  have hkeys : postParams.keys = paramNames postPattern := by decide
  have hvalues : ∀ v ∈ postParams.values, IsSegment v := by decide
  have hpath : matchPath? postPattern "users/:id/posts//7" = some postParams := rfl
  obtain ⟨-, hfill, hmatch⟩ := matchPath?_roundTrip hnodup
  exact ⟨hnodup, hkeys, hvalues, by decide, (hmatch postParams hkeys hvalues).1, (hfill _ _ hpath).2⟩

end EntityRest.Pattern
