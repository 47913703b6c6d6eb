import EntityRest.Proofs.Data.OrdMap
import EntityRest.Proofs.Text.Integer
import EntityRest.Query.List
import Mathlib.Data.List.Basic

/-! # Pages of a list

Cut into pieces of `l`, a list has `pageCount` pages: together they are the list, all but the last are
full, and after them there is nothing (`flatMap_pageOf`). A query asks for a piece by its limit with a page
number or an offset, of which every other part of the query is independent (`ofParams_page`,
`ofParams_offset`). -/

namespace EntityRest

/-! ### Cutting a list -/

section Pages

variable {α : Type}

/-- The piece with index `i`, counted from 0. -/
def pageOf (l i : Nat) (whole : List α) : List α := (whole.drop (i * l)).take l

/-- The number of pieces that hold `n` elements. -/
def pageCount (n l : Nat) : Nat := (n + l - 1) / l

theorem lt_pageCount_iff {n l i : Nat} (hl : 1 ≤ l) : i < pageCount n l ↔ i * l < n := by
  rw [pageCount, Nat.lt_iff_add_one_le, Nat.le_div_iff_mul_le (by omega), Nat.add_mul]
  omega

theorem flatMap_range_pageOf (l : Nat) (whole : List α) (count : Nat) :
    (List.range count).flatMap (fun i => pageOf l i whole) = whole.take (count * l) := by
  induction count with
  | zero => simp
  | succ count ih =>
    rw [List.range_succ, List.flatMap_append, ih, Nat.succ_mul, List.take_add]
    simp [pageOf]

theorem flatMap_pageOf {l : Nat} (hl : 1 ≤ l) (whole : List α) :
    (List.range (pageCount whole.length l)).flatMap (fun i => pageOf l i whole) = whole := by
  rw [flatMap_range_pageOf]
  have hlast := lt_pageCount_iff (n := whole.length) (i := pageCount whole.length l) hl
  exact List.take_of_length_le (by omega)

theorem length_pageOf {l i : Nat} (hl : 1 ≤ l) {whole : List α}
    (hi : i + 1 < pageCount whole.length l) : (pageOf l i whole).length = l := by
  have hnext := (lt_pageCount_iff hl).1 hi
  rw [Nat.add_mul] at hnext
  rw [pageOf, List.length_take, List.length_drop]
  omega

theorem pageOf_eq_nil {l i : Nat} (hl : 1 ≤ l) {whole : List α}
    (hi : pageCount whole.length l ≤ i) : pageOf l i whole = [] := by
  have hend : whole.length ≤ i * l := by
    by_contra h
    exact absurd ((lt_pageCount_iff hl).2 (by omega : i * l < whole.length)) (by omega)
  rw [pageOf, List.drop_of_length_le hend, List.take_nil]

end Pages

/-! ### Asking for a page -/

namespace ListQuery

variable {params : OrdMap String String} {key raw : String}

/-- A parameter that is no condition leaves the filter as it is, wherever it stands. -/
theorem filterOf_insert (h : filterKey? key = none) : filterOf (params.insert key raw) = filterOf params := by
  have hadd : ∀ f raw, addParameter f key raw = f := fun f raw => by rw [addParameter, h]
  unfold filterOf OrdMap.insert
  split
  · generalize (∅ : Filter) = f
    show (params.toList.map fun e => (e.1, if e.1 = key then raw else e.2)).foldl _ f = _
    rw [List.foldl_map]
    congr 1
    funext f e
    obtain ⟨k, v⟩ := e
    by_cases hk : k = key
    · subst hk; simp [hadd]
    · simp [hk]
  · show (params.toList ++ [(key, raw)]).foldl _ _ = _
    rw [List.foldl_append]
    exact hadd _ _

theorem either?_insert_of_ne {k synonym : String} (hk : k ≠ key) (hsynonym : synonym ≠ key) :
    either? (params.insert key raw) k synonym = either? params k synonym := by
  rw [either?, either?, OrdMap.get?_insert, OrdMap.get?_insert, if_neg hk, if_neg hsynonym]

theorem either?_insert_self {synonym : String} :
    either? (params.insert key raw) key synonym = some raw := by
  rw [either?, OrdMap.get?_insert, if_pos rfl]; rfl

/-- A parameter for the page changes what is taken and skipped, and nothing else of the query. -/
theorem ofParams_insert (h : filterKey? key = none) (hsort : "sort" ≠ key) (horder : "orderBy" ≠ key)
    (hembed : "include" ≠ key) :
    ofParams (params.insert key raw) = { ofParams params with
      take := takeOf (params.insert key raw)
      skip := skipOf (params.insert key raw) (takeOf (params.insert key raw)) } := by
  simp only [ofParams, embedOf, filterOf_insert h, either?_insert_of_ne hsort horder, OrdMap.get?_insert,
    if_neg hembed]

/-- Asks for `l` records on a page. -/
def withLimit (params : OrdMap String String) (l : Nat) : OrdMap String String :=
  params.insert "limit" (toString l)

/-- Asks for the page with the number `k`, counted from 1. -/
def withPage (params : OrdMap String String) (k : Nat) : OrdMap String String :=
  params.insert "page" (toString k)

/-- Asks for the records behind the first `o`. -/
def withOffset (params : OrdMap String String) (o : Nat) : OrdMap String String :=
  params.insert "offset" (toString o)

theorem takeOf_insert_of_ne (hlimit : "limit" ≠ key) (htake : "take" ≠ key) :
    takeOf (params.insert key raw) = takeOf params := by
  rw [takeOf, either?_insert_of_ne hlimit htake, takeOf]

theorem takeOf_withLimit {l : Nat} (hl : 1 ≤ l) (hmax : l ≤ maxTake) :
    takeOf (withLimit params l) = l := by
  have hlt : l < Text.int64Bound := Nat.lt_of_le_of_lt hmax (by decide)
  rw [takeOf, withLimit, either?_insert_self, Option.bind_some, Text.int64?_toString, if_pos hlt]
  show (max 1 (min (l : Int) maxTake)).toNat = l
  omega

variable {l n : Nat}

/-- A page number of 64 bits asks for the piece before which there are as many pages less one. -/
theorem ofParams_page (hl : 1 ≤ l) (hmax : l ≤ maxTake) (hn : n + 1 < Text.int64Bound) :
    ofParams (withPage (withLimit params l) (n + 1)) =
      { ofParams params with take := l, skip := min (n * l) maxSkip } := by
  have htake : takeOf (withPage (withLimit params l) (n + 1)) = l := by
    rw [withPage, takeOf_insert_of_ne (by decide) (by decide), takeOf_withLimit hl hmax]
  have hskip : skipOf (withPage (withLimit params l) (n + 1)) l = min (n * l) maxSkip := by
    have hpage : (max ((n + 1 : Nat) : Int) 1).toNat - 1 = n := by omega
    rw [skipOf, withPage, OrdMap.get?_insert, if_pos rfl, Option.bind_some, Text.int64?_toString, if_pos hn]
    show min (((max ((n + 1 : Nat) : Int) 1).toNat - 1) * l) maxSkip = _
    rw [hpage]
  unfold withPage at htake hskip ⊢
  rw [ofParams_insert (by decide) (by decide) (by decide) (by decide), htake, hskip, withLimit,
    ofParams_insert (by decide) (by decide) (by decide) (by decide)]

/-- An offset of 64 bits counts where no page number stands beside it. -/
theorem ofParams_offset (hl : 1 ≤ l) (hmax : l ≤ maxTake) (hn : n < Text.int64Bound)
    (hpage : params.get? "page" = none) :
    ofParams (withOffset (withLimit params l) n) = { ofParams params with take := l, skip := n } := by
  have htake : takeOf (withOffset (withLimit params l) n) = l := by
    rw [withOffset, takeOf_insert_of_ne (by decide) (by decide), takeOf_withLimit hl hmax]
  have hskip : skipOf (withOffset (withLimit params l) n) l = n := by
    rw [skipOf, withOffset, either?_insert_self, OrdMap.get?_insert, if_neg (by decide), withLimit,
      OrdMap.get?_insert, if_neg (by decide), hpage, Option.bind_none, Option.bind_some,
      Text.int64?_toString, if_pos hn]
    rfl
  unfold withOffset at htake hskip ⊢
  rw [ofParams_insert (by decide) (by decide) (by decide) (by decide), htake, hskip, withLimit,
    ofParams_insert (by decide) (by decide) (by decide) (by decide)]

end ListQuery

end EntityRest
