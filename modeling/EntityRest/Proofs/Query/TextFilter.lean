import EntityRest.Proofs.Query.Equality
import EntityRest.Proofs.Query.FilterParameter
import EntityRest.Proofs.Text.Integer
import Mathlib.Data.List.Infix

/-! # Filters on texts

A query gives texts, which are read as booleans, null or numbers where they look like it, and a stored
string is compared with what was read. A number meets a string by its text, so what is undone is the
reading of numbers in their own spelling, and not that of other spellings or of the three words
(`text?_coerce`); the operators on texts compare strings only (`accepts_text_filter`). -/

namespace EntityRest

/-- The stored string that a value of a query is equal to. -/
def Json.text? : Json → Option String
  | str s => some s
  | num n => some n.text
  | _ => none

theorem Json.looseEq_str_iff {v : String} {j : Json} : (str v).looseEq j = true ↔ j.text? = some v := by
  cases j with
  | str s => simpa [looseEq, same, text?] using eq_comm
  | num n => simpa [looseEq, text?] using eq_comm
  | _ => simp [looseEq, same, text?]

theorem isInfix_iff {needle hay : List Char} : isInfix needle hay = true ↔ needle <:+: hay := by
  induction hay with
  | nil => simp [isInfix]
  | cons c cs ih => rw [isInfix, Bool.or_eq_true, ih, List.isPrefixOf_iff_prefix, List.infix_cons_iff]

namespace ListQuery

/-! ### Reading a text -/

/-- The texts that are read as a boolean or as null. -/
def words : List String := ["true", "false", "null"]

/-- A text that is read as itself. -/
structure IsPlain (raw : String) : Prop where
  no_word : raw ∉ words
  no_number : number? raw.toList = none

theorem coerce_of_no_word {raw : String} (h : raw ∉ words) :
    coerce raw = (number? raw.toList).elim (.str raw) .num := by
  simp only [words, List.mem_cons, List.not_mem_nil, or_false, not_or] at h
  rw [coerce, if_neg h.1, if_neg h.2.1, if_neg h.2.2]

theorem coerce_of_plain {raw : String} (h : IsPlain raw) : coerce raw = .str raw := by
  rw [coerce_of_no_word h.no_word, h.no_number]
  rfl

theorem text?_coerce (raw : String) :
    (coerce raw).text? =
      if raw ∈ words then none else some ((number? raw.toList).elim raw Number.text) := by
  split
  · next h =>
    simp only [words, List.mem_cons, List.not_mem_nil, or_false] at h
    rcases h with rfl | rfl | rfl <;> rfl
  · next h =>
    rw [coerce_of_no_word h]
    cases number? raw.toList <;> rfl

/-- Whatever is read as a string is read as itself. -/
theorem eq_of_coerce_eq_str {raw s : String} (h : coerce raw = .str s) : s = raw := by
  by_cases hword : raw ∈ words
  · have htext := text?_coerce raw
    rw [h, if_pos hword] at htext
    cases htext
  · rw [coerce_of_no_word hword] at h
    cases hnumber : number? raw.toList with
    | none => rw [hnumber] at h; cases h; rfl
    | some n => rw [hnumber] at h; cases h

/-! ### Integers in their own spelling -/

theorem number?_digits {n : Nat} (h : Text.inInt64 n = true) :
    number? (Nat.toDigits 10 n) = some (.int n) := by
  unfold number?
  split
  rename_i negative digits hsign
  split at hsign
  · next ds hds =>
    have hminus := (Text.isDigits_toDigits n).digit '-' (by rw [hds]; exact .head _)
    cases hminus
  · cases hsign
    rw [Text.natOfChars?_toDigits]
    simp [h]

theorem number?_minus_digits {n : Nat} (h : Text.inInt64 (-n) = true) :
    number? ('-' :: Nat.toDigits 10 n) = some (.int (-n)) := by
  simp [number?, Text.natOfChars?_toDigits, h]

theorem number?_toString {n : Int} (h : Text.inInt64 n = true) :
    number? (toString n).toList = some (.int n) := by
  cases n with
  | ofNat m =>
    rw [Text.toList_toString_ofNat]
    exact number?_digits h
  | negSucc m =>
    rw [Text.toList_toString_negSucc]
    exact number?_minus_digits (n := m + 1) h

theorem not_mem_words_of_number {raw : String} {n : Number} (h : number? raw.toList = some n) :
    raw ∉ words := by
  intro hword
  simp only [words, List.mem_cons, List.not_mem_nil, or_false] at hword
  have hnone : number? raw.toList = none := by
    rcases hword with rfl | rfl | rfl <;> rfl
  rw [hnone] at h
  cases h

/-! ### What the filters accept -/

/-- The operators on texts, with how the text that is asked for has to lie in the stored one. -/
inductive TextOperator : String → FilterOp → (List Char → List Char → Prop) → Prop
  | contains : TextOperator "contains" .contains (· <:+: ·)
  | startsWith : TextOperator "startsWith" .startsWith (· <+: ·)
  | endsWith : TextOperator "endsWith" .endsWith (· <:+ ·)

theorem TextOperator.holds_iff {name : String} {op : FilterOp} {lies : List Char → List Char → Prop}
    (h : TextOperator name op lies) {v s : String} :
    op.holds (.str v) (.str s) = true ↔ lies s.toList v.toList := by
  cases h with
  | contains => exact isInfix_iff
  | startsWith => exact List.isPrefixOf_iff_prefix
  | endsWith => exact List.isSuffixOf_iff_suffix

/-- An operator on texts accepts nothing but a text for a text. -/
theorem TextOperator.exists_str {name : String} {op : FilterOp} {lies : List Char → List Char → Prop}
    (h : TextOperator name op lies) {v : String} {j : Json} (hholds : op.holds (.str v) j = true) :
    ∃ s, j = .str s := by
  cases j with
  | str s => exact ⟨s, rfl⟩
  | _ => cases h <;> cases hholds

section

variable {field v : String} {row : Fields} (hfield : Bracketable field)
  (hrow : row.get? field = some (.str v)) (s : String)
include hfield hrow

theorem accepts_bare_iff :
    (ofParams (single (filterKey field none) s)).filter.accepts row = true ↔
      (coerce s).text? = some v := by
  rw [filter_single_bare hfield, Filter.accepts_ofList_single, Fields.getOrNull, hrow]
  exact Json.looseEq_str_iff

theorem accepts_operator_iff {name : String} {op : FilterOp} (hname : Bracketable name)
    (hop : FilterOp.ofName? name = some op) :
    (ofParams (single (filterKey field (some name)) s)).filter.accepts row = true ↔
      op.holds (.str v) (operand op s) = true := by
  rw [filter_single_operator hfield hname hop, Filter.accepts_ofList_single, Fields.getOrNull, hrow]
  exact Bool.eq_iff_iff.1 (Condition.holds_ops_single _ _ _)

theorem accepts_equality_iff {op : Option String} (hop : op ∈ [none, some "eq"]) :
    (ofParams (single (filterKey field op) s)).filter.accepts row = true ↔
      s ∉ words ∧ v = (number? s.toList).elim s Number.text := by
  have heq : (ofParams (single (filterKey field op) s)).filter.accepts row = true ↔
      (coerce s).text? = some v := by
    simp only [List.mem_cons, List.not_mem_nil, or_false] at hop
    rcases hop with rfl | rfl
    · exact accepts_bare_iff hfield hrow s
    · have hop : FilterOp.ofName? "eq" = some .equals := rfl
      rw [accepts_operator_iff hfield hrow s ⟨by decide, by decide⟩ hop]
      exact Json.looseEq_str_iff
  rw [heq, text?_coerce]
  by_cases h : s ∈ words <;> simp [h, eq_comm]

/-- A filter for a text finds the strings that are equal to it, after it has been read: a text that is
read as a number finds the number's own text, one of the three words finds no string, and any other text
finds itself. So an integer in its own spelling is found as it was written. What a text operator finds has
the text in its place, and every plain text is found there. -/
theorem accepts_text_filter :
    let accepts (op : Option String) : Prop :=
      (ofParams (single (filterKey field op) s)).filter.accepts row = true
    (∀ op ∈ [none, some "eq"],
        (accepts op ↔ s ∉ words ∧ v = (number? s.toList).elim s Number.text) ∧
          ∀ n : Int, Text.inInt64 n = true → s = toString n → (accepts op ↔ v = s)) ∧
      ∀ name op lies, TextOperator name op lies →
        (accepts (some name) → lies s.toList v.toList) ∧
          (IsPlain s → lies s.toList v.toList → accepts (some name)) := by
  intro accepts
  refine ⟨fun op hop => ⟨accepts_equality_iff hfield hrow s hop, fun n hn hs => ?_⟩,
    fun name op lies htext => ?_⟩
  · have hnumber : number? s.toList = some (.int n) := by rw [hs]; exact number?_toString hn
    have hword : s ∉ words := not_mem_words_of_number hnumber
    show (ofParams (single (filterKey field op) s)).filter.accepts row = true ↔ v = s
    rw [accepts_equality_iff hfield hrow s hop, hnumber, hs]
    simp [← hs, hword, Number.text]
  · have hname : Bracketable name := by cases htext <;> exact ⟨by decide, by decide⟩
    have hop : FilterOp.ofName? name = some op := by cases htext <;> rfl
    have hoperand : operand op s = coerce s := by cases htext <;> rfl
    have haccepts : accepts (some name) ↔ op.holds (.str v) (coerce s) = true := by
      rw [← hoperand]
      exact accepts_operator_iff hfield hrow s hname hop
    rw [haccepts]
    refine ⟨fun h => ?_, fun hplain h => ?_⟩
    · obtain ⟨t, ht⟩ := htext.exists_str h
      rw [ht, htext.holds_iff, eq_of_coerce_eq_str ht] at h
      exact h
    · rw [coerce_of_plain hplain]
      exact htext.holds_iff.2 h

end

theorem accepts_text_filter_codes :
    (ofParams (single (filterKey "code" (some "eq")) "-42")).filter.accepts [("code", .str "-42")] = true ∧
      (ofParams (single (filterKey "code" (some "contains")) "a4")).filter.accepts
        [("code", .str "xa42")] = true := by
  have hcode : Bracketable "code" := ⟨by decide, by decide⟩
  have hrow (v : String) : Fields.get? [("code", .str v)] "code" = some (.str v) := rfl
  have heq := (accepts_text_filter hcode (hrow "-42") "-42").1 (some "eq") (by decide)
  have hcontains := (accepts_text_filter hcode (hrow "xa42") "a4").2 "contains" .contains _ .contains
  exact ⟨(heq.2 (-42) (by decide) (by decide)).2 rfl,
    hcontains.2 ⟨by decide, by decide⟩ (isInfix_iff.1 (by decide))⟩

/-- A code with leading zeros is not found by its own text, which is read as the number 7, nor by a part of
it. A parameter for a field whose name holds a bracket is no condition at all. -/
theorem misread_texts :
    (ofParams (single (filterKey "code" none) "007")).filter.accepts [("code", .str "007")] = false ∧
      "00".toList <:+: "007".toList ∧
      (ofParams (single (filterKey "code" (some "contains")) "00")).filter.accepts
        [("code", .str "007")] = false ∧
      (ofParams (single (filterKey "a]" none) "x")).filter.accepts [("a]", .str "y")] = true :=
  ⟨by decide, isInfix_iff.1 (by decide), by decide, by decide⟩

end ListQuery

end EntityRest
