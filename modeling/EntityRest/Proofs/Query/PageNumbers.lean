import EntityRest.Proofs.Data.Entries
import EntityRest.Proofs.Query.FilterParameter
import EntityRest.Proofs.Query.Paging

/-! # Limits, offsets and pages as numbers

The numbers of a request are taken as they are written, brought between the bounds for what they stand for.
Only a number of 64 bits is one (`int64?_of_isDecimal`); a greater or a smaller one is left out of account, as
a text that is no number is. Between two page numbers that count, the greater one never leads back
(`skipOfPage_mono`). -/

namespace EntityRest.ListQuery

open Text (IsDecimal inInt64 int64?_of_isDecimal)

theorem either?_erase_of_ne {params : OrdMap String String} {key k synonym : String} (hk : k ≠ key)
    (hsynonym : synonym ≠ key) : either? (params.erase key) k synonym = either? params k synonym := by
  rw [either?, either?, OrdMap.get?_erase, OrdMap.get?_erase, if_neg hk, if_neg hsynonym]

variable {params : OrdMap String String} {text : String} {n : Int} (h : IsDecimal text n)
include h

theorem takeOf_of_isDecimal (hlimit : either? params "limit" "take" = some text) :
    takeOf params = if inInt64 n then clampTake n else defaultTake := by
  rw [takeOf, hlimit, Option.bind_some, int64?_of_isDecimal h]
  split <;> rfl

theorem skipOf_of_isDecimal_offset (hpage : params.get? "page" = none)
    (hoffset : either? params "offset" "skip" = some text) (take : Nat) :
    skipOf params take = if inInt64 n then n.toNat else 0 := by
  rw [skipOf, hpage, hoffset, Option.bind_none, Option.bind_some, int64?_of_isDecimal h]
  dsimp only
  split <;> rfl

theorem skipOf_of_isDecimal_page (hpage : params.get? "page" = some text) (take : Nat) :
    skipOf params take =
      if inInt64 n then skipOfPage n take else skipOf (params.erase "page") take := by
  have herase : (params.erase "page").get? "page" = none := by rw [OrdMap.get?_erase, if_pos rfl]
  unfold skipOf
  rw [hpage, herase, either?_erase_of_ne (by decide) (by decide), Option.bind_none, Option.bind_some,
    int64?_of_isDecimal h]
  cases inInt64 n <;> rfl

omit h

/-- A greater page number never leads to an earlier record. -/
theorem skipOfPage_mono {m n : Int} (hle : m ≤ n) (take : Nat) : skipOfPage m take ≤ skipOfPage n take := by
  have hbefore : (max m 1).toNat - 1 ≤ (max n 1).toNat - 1 := by omega
  have hmul := Nat.mul_le_mul_right take hbefore
  unfold skipOfPage
  omega

theorem skip_withPage (h : IsDecimal text n) (hn : inInt64 n = true) :
    (ofParams (params.insert "page" text)).skip = skipOfPage n (takeOf params) := by
  have hpage : (params.insert "page" text).get? "page" = some text := by rw [OrdMap.get?_insert, if_pos rfl]
  show skipOf (params.insert "page" text) (takeOf (params.insert "page" text)) = _
  rw [takeOf_insert_of_ne (by decide) (by decide), skipOf_of_isDecimal_page h hpage, if_pos hn]

/-- Every integer that 64 bits with a sign hold counts as a limit, an offset or a page number, however it is
written; any other one is left out of account. -/
theorem ofParams_of_isDecimal (h : IsDecimal text n) (params : OrdMap String String) :
    let fits := -0x8000000000000000 ≤ n ∧ n < 0x8000000000000000
    (either? params "limit" "take" = some text →
        (ofParams params).take = if fits then (max 1 (min n 100)).toNat else 20) ∧
      (params.get? "page" = none → either? params "offset" "skip" = some text →
        (ofParams params).skip = if fits then min (max n 0).toNat 0xFFFFFFFFFFFFFFFF else 0) ∧
      (params.get? "page" = some text →
        (ofParams params).skip =
          if fits then min ((max n 1 - 1).toNat * (ofParams params).take) 0xFFFFFFFFFFFFFFFF
          else (ofParams (params.erase "page")).skip) ∧
      ∀ (m : Int) (text' : String), IsDecimal text' m → -0x8000000000000000 ≤ m → m ≤ n →
        n < 0x8000000000000000 →
        (ofParams (params.insert "page" text')).skip ≤ (ofParams (params.insert "page" text)).skip := by
  intro fits
  have hfits {n : Int} : inInt64 n = true ↔ -0x8000000000000000 ≤ n ∧ n < 0x8000000000000000 := by
    simp [inInt64]
  have herase : takeOf (params.erase "page") = takeOf params := by
    rw [takeOf, either?_erase_of_ne (by decide) (by decide), takeOf]
  refine ⟨fun hlimit => ?_, fun hpage hoffset => ?_, fun hpage => ?_, fun m text' h' hlow hle hhigh => ?_⟩
  · show takeOf params = _
    rw [takeOf_of_isDecimal h hlimit, if_congr hfits rfl rfl]
    rfl
  · show skipOf params _ = _
    rw [skipOf_of_isDecimal_offset h hpage hoffset, if_congr hfits rfl rfl]
    split
    · omega
    · rfl
  · show skipOf params (takeOf params) = if _ then _ else skipOf (params.erase "page") _
    rw [skipOf_of_isDecimal_page h hpage, if_congr hfits rfl rfl, herase]
    have hbefore : (max n 1).toNat - 1 = (max n 1 - 1).toNat := by omega
    rw [skipOfPage, hbefore]
    rfl
  · rw [skip_withPage h' (hfits.2 ⟨hlow, by omega⟩), skip_withPage h (hfits.2 ⟨by omega, hhigh⟩)]
    exact skipOfPage_mono hle _

theorem ofParams_of_isDecimal_numbers :
    let params : OrdMap String String := OrdMap.ofList [("limit", " +030"), ("offset", "7")]
    (ofParams params).take = 30 ∧ (ofParams (single "skip" "-5")).skip = 0 ∧
      (ofParams (params.insert "page" "3")).skip = 60 ∧
      (ofParams (params.insert "page" "2")).skip ≤ (ofParams (params.insert "page" "3")).skip ∧
      (ofParams (params.insert "page" "9223372036854775808")).skip = 7 := by
  intro params
  have h30 : IsDecimal " +030" 30 :=
    ⟨[' '], ['+', '0', '3', '0'], [], rfl, List.all_eq_true.1 rfl, nofun,
      .plus ⟨List.cons_ne_nil _ _, List.all_eq_true.1 rfl, rfl⟩⟩
  have hminus : IsDecimal "-5" (-5) :=
    ⟨[], ['-', '5'], [], rfl, nofun, nofun, .minus ⟨List.cons_ne_nil _ _, List.all_eq_true.1 rfl, rfl⟩⟩
  have h2 : IsDecimal "2" 2 := Text.isDecimal_toString 2
  have h3 : IsDecimal "3" 3 := Text.isDecimal_toString 3
  have hbeyond : IsDecimal "9223372036854775808" 9223372036854775808 :=
    Text.isDecimal_toString 9223372036854775808
  refine ⟨(ofParams_of_isDecimal h30 params).1 rfl,
    (ofParams_of_isDecimal hminus (single "skip" "-5")).2.1 rfl rfl,
    (ofParams_of_isDecimal h3 (params.insert "page" "3")).2.2.1 rfl,
    (ofParams_of_isDecimal h3 params).2.2.2 2 "2" h2 (by decide) (by decide) (by decide),
    (ofParams_of_isDecimal hbeyond (params.insert "page" _)).2.2.1 rfl⟩

/-- A number that 64 bits do not hold is not brought between the bounds: as a limit it gives the usual one, as
an offset none, and as a page number the first page, although it is greater than the second. -/
theorem numbers_beyond_int64 :
    let huge : Int := 9223372036854775808
    let text := "9223372036854775808"
    IsDecimal text huge ∧ (ofParams (single "limit" text)).take ≠ (max 1 (min huge 100)).toNat ∧
      (ofParams (single "offset" text)).skip ≠ min (max huge 0).toNat 0xFFFFFFFFFFFFFFFF ∧
      (ofParams (single "page" text)).skip < (ofParams (single "page" "2")).skip :=
  ⟨Text.isDecimal_toString 9223372036854775808, by decide, by decide, by decide⟩

end EntityRest.ListQuery
