import EntityRest.Proofs.Data.OrdMap
import EntityRest.Query.List

/-! # Parameters that hold a condition

The name of a parameter for a field, with or without an operator, is read back as that field and that
operator (`filterKey?_filterKey`), no other name is read as one (`filterKey?_eq_some_iff`), and a query of
one such parameter has one condition. -/

namespace EntityRest.ListQuery

/-- A name that can stand in brackets. -/
structure Bracketable (name : String) : Prop where
  nonempty : name ≠ ""
  no_bracket : ']' ∉ name.toList

instance : DecidablePred Bracketable := fun name =>
  decidable_of_iff (name ≠ "" ∧ ']' ∉ name.toList) ⟨fun ⟨h, h'⟩ => ⟨h, h'⟩, fun ⟨h, h'⟩ => ⟨h, h'⟩⟩

/-- The name of the parameter that holds the condition on a field. -/
def filterKey (field : String) (op : Option String) : String :=
  "filter[" ++ field ++ "]" ++ op.elim "" fun name => "[" ++ name ++ "]"

theorem bracketed?_append {name : String} (h : Bracketable name) (rest : List Char) :
    bracketed? ('[' :: (name.toList ++ ']' :: rest)) = some (name, rest) := by
  have hname : ∀ c ∈ name.toList, (c ≠ ']' : Bool) = true := fun c hc => by
    simp only [ne_eq, decide_eq_true_eq]
    rintro rfl
    exact h.no_bracket hc
  have htake : (name.toList ++ ']' :: rest).takeWhile (· ≠ ']') = name.toList := by
    rw [List.takeWhile_append_of_pos hname]
    simp
  have hdrop : (name.toList ++ ']' :: rest).dropWhile (· ≠ ']') = ']' :: rest := by
    rw [List.dropWhile_append_of_pos hname]
    simp
  have hne : name.toList.isEmpty = false := by
    simpa [List.isEmpty_iff] using h.nonempty
  simp only [bracketed?, htake, hdrop, hne, Bool.false_eq_true, if_false, String.ofList_toList]

theorem toList_filterKey (field : String) (op : Option String) :
    (filterKey field op).toList = "filter".toList ++
      '[' :: (field.toList ++ ']' :: op.elim [] fun name => '[' :: (name.toList ++ [']'])) := by
  cases op <;> simp [filterKey]

theorem filterKey?_filterKey {field : String} {op : Option String} (hfield : Bracketable field)
    (hop : ∀ name ∈ op, Bracketable name) : filterKey? (filterKey field op) = some (field, op) := by
  have hprefix : "filter".toList.isPrefixOf (filterKey field op).toList = true := by
    rw [toList_filterKey]
    exact List.isPrefixOf_iff_prefix.2 (List.prefix_append _ _)
  have hbracket : bracketed? ((filterKey field op).toList.drop 6) =
      some (field, op.elim [] fun name => '[' :: (name.toList ++ [']'])) := by
    rw [toList_filterKey]
    exact bracketed?_append hfield _
  unfold filterKey?
  dsimp only
  rw [if_pos hprefix, hbracket]
  cases op with
  | none => rfl
  | some name =>
    dsimp only [Option.elim]
    rw [bracketed?_append (hop name rfl)]

theorem of_bracketed?_eq_some {cs rest : List Char} {name : String} (h : bracketed? cs = some (name, rest)) :
    Bracketable name ∧ cs = '[' :: (name.toList ++ ']' :: rest) := by
  unfold bracketed? at h
  split at h
  · next cs =>
    dsimp only at h
    split at h
    · next rest' hdrop =>
      have hsplit : cs.takeWhile (· ≠ ']') ++ ']' :: rest' = cs := hdrop ▸ List.takeWhile_append_dropWhile
      split at h
      · cases h
      · next hne =>
        cases h
        refine ⟨⟨fun heq => hne ?_, fun hmem => ?_⟩, ?_⟩
        · rw [List.isEmpty_iff]
          simpa using congrArg String.toList heq
        · rw [String.toList_ofList] at hmem
          simpa using List.all_eq_true.1 List.all_takeWhile _ hmem
        · rw [String.toList_ofList, hsplit]
    · cases h
  · cases h

/-- The names that are read are those of a field, with or without an operator, and no others. -/
theorem filterKey?_eq_some_iff {key field : String} {op : Option String} :
    filterKey? key = some (field, op) ↔
      Bracketable field ∧ (∀ name ∈ op, Bracketable name) ∧ key = filterKey field op := by
  refine ⟨fun h => ?_, fun ⟨hfield, hop, hkey⟩ => hkey ▸ filterKey?_filterKey hfield hop⟩
  unfold filterKey? at h
  dsimp only at h
  split at h
  · next hprefix =>
    obtain ⟨cs, hcs⟩ := List.isPrefixOf_iff_prefix.1 hprefix
    have hdrop : key.toList.drop 6 = cs := by rw [← hcs]; rfl
    rw [hdrop] at h
    split at h
    · cases h
    · next hbracket =>
      cases h
      obtain ⟨hfield, rfl⟩ := of_bracketed?_eq_some hbracket
      refine ⟨hfield, nofun, String.toList_inj.1 ?_⟩
      rw [toList_filterKey]
      exact hcs.symm
    · next rest _ hbracket =>
      split at h
      · next name hname =>
        cases h
        obtain ⟨hfield, rfl⟩ := of_bracketed?_eq_some hbracket
        obtain ⟨hop, rfl⟩ := of_bracketed?_eq_some hname
        refine ⟨hfield, fun _ heq => Option.mem_some.1 heq ▸ hop, String.toList_inj.1 ?_⟩
        rw [toList_filterKey]
        exact hcs.symm
      · cases h
  · cases h

theorem filter_prefix_filterKey (field : String) (op : Option String) :
    "filter[".toList <+: (filterKey field op).toList := by
  rw [toList_filterKey]
  exact ⟨_, rfl⟩

/-- The query of one parameter. -/
def single (key raw : String) : OrdMap String String := OrdMap.ofList [(key, raw)]

theorem filter_single_bare {field : String} (h : Bracketable field) (raw : String) :
    (ofParams (single (filterKey field none) raw)).filter =
      OrdMap.ofList [(field, .literal (coerce raw))] := by
  have hkey : filterKey? (filterKey field none) = some (field, none) :=
    filterKey?_filterKey h fun _ hname => by cases hname
  show addParameter ∅ (filterKey field none) raw = _
  rw [addParameter, hkey]
  rfl

theorem filter_single_operator {field name : String} {op : FilterOp} (h : Bracketable field)
    (hname : Bracketable name) (hop : FilterOp.ofName? name = some op) (raw : String) :
    (ofParams (single (filterKey field (some name)) raw)).filter =
      OrdMap.ofList [(field, .ops (OrdMap.ofList [(op, operand op raw)]))] := by
  have hkey : filterKey? (filterKey field (some name)) = some (field, some name) :=
    filterKey?_filterKey h fun _ heq => Option.mem_some.1 heq ▸ hname
  show addParameter ∅ (filterKey field (some name)) raw = _
  rw [addParameter, hkey]
  dsimp only
  rw [hop]
  rfl

end EntityRest.ListQuery
