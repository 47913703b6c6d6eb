import EntityRest.Proofs.Data.Entries
import EntityRest.Proofs.Text.Items
import EntityRest.Proofs.Text.Utf8
import EntityRest.Query.List

/-! # Sorting in a query text

A sorting is read back from the text in which its fields stand one after the other, each behind the sign of
its direction (`toList_sortOf_sortText`). The sign is told by the first byte of an item, and the field is what
follows that byte; an item has a first byte, and after a sign a character begins, so this never goes wrong,
whatever characters follow (`sortItemByBytes?_eq`). -/

namespace EntityRest

/-- The sign before a field to sort by. -/
def SortOrder.sign : SortOrder → Char
  | asc => '+'
  | desc => '-'

theorem SortOrder.comma_ne_sign (order : SortOrder) : ',' ≠ order.sign := by
  cases order <;> decide

theorem SortOrder.isBlank_sign (order : SortOrder) : Text.isBlank order.sign = false := by
  cases order <;> decide

namespace ListQuery

/-- A field to sort by, behind its sign. -/
def sortItem (e : String × SortOrder) : String := String.ofList (e.2.sign :: e.1.toList)

/-- A sorting as a request writes it. -/
def sortText (sort : List (String × SortOrder)) : String := ",".intercalate (sort.map sortItem)

variable {e : String × SortOrder} {item : String}

theorem toList_sortItem (e : String × SortOrder) : (sortItem e).toList = e.2.sign :: e.1.toList :=
  String.toList_ofList

theorem sortItem?_sortItem (h : e.1 ≠ "") : sortItem? (sortItem e) = some e := by
  obtain ⟨field, order⟩ := e
  have hne : field.toList.isEmpty = false := by
    rw [List.isEmpty_eq_false_iff]
    exact fun heq => h (String.toList_eq_nil_iff.1 heq)
  rw [sortItem?, toList_sortItem]
  cases order <;> simp [SortOrder.sign, hne]

theorem listable_sortItem (h : Text.Listable e.1) : Text.Listable (sortItem e) := by
  obtain ⟨field, order⟩ := e
  have hne : field.toList ≠ [] := fun heq => h.nonempty (String.toList_eq_nil_iff.1 heq)
  refine ⟨fun heq => ?_, ?_, ?_, ?_⟩
  · simpa [toList_sortItem] using congrArg String.toList heq
  · rw [toList_sortItem, List.mem_cons, not_or]
    exact ⟨order.comma_ne_sign, h.no_comma⟩
  · rw [toList_sortItem]
    rintro c ⟨⟩
    exact order.isBlank_sign
  · rw [toList_sortItem, List.getLast?_cons_of_ne_nil hne]
    exact h.last

/-- A sorting is read back as it was written, field by field. -/
theorem toList_sortOf_sortText {sort : List (String × SortOrder)} (h : ∀ e ∈ sort, Text.Listable e.1)
    (hapart : (sort.map Prod.fst).Nodup) : (sortOf (sortText sort)).toList = sort := by
  have hitems : Text.listItems (sortText sort) = sort.map sortItem :=
    Text.listItems_intercalate (List.forall_mem_map.2 fun e he => listable_sortItem (h e he))
  have hread : (sort.map sortItem).filterMap sortItem? = sort := by
    rw [List.filterMap_map]
    exact (List.filterMap_congr fun e he => sortItem?_sortItem (h e he).nonempty).trans List.filterMap_some
  rw [sortOf, hitems, hread]
  exact OrdMap.toList_insertMany_of_disjoint hapart fun k _ hk => absurd hk List.not_mem_nil

/-! ### Byte by byte -/

def firstByte? (s : String) : Option UInt8 := s.toByteArray.data[0]?

/-- The text from a byte on; there is none where that is beyond the end, or inside of a character. -/
def fromByte? (s : String) (i : Nat) : Option String :=
  if i ≤ s.utf8ByteSize then String.fromUTF8? (s.toByteArray.extract i s.utf8ByteSize) else none

/-- The reading of an item by its bytes. It fails for want of a first byte, and where no character begins
behind a sign. -/
def sortItemByBytes? (item : String) : Option (Option (String × SortOrder)) := do
  let first ← firstByte? item
  let (field, order) ←
    if first = 0x2D then (fromByte? item 1).map (·, SortOrder.desc)
    else if first = 0x2B then (fromByte? item 1).map (·, SortOrder.asc)
    else some (item, SortOrder.asc)
  some (if field = "" then none else some (field, order))

/-- The byte of an ASCII character is the first byte of no other character. -/
theorem head?_utf8EncodeChar_eq_some_iff {c d : Char} (hd : d.toNat < 128) :
    (String.utf8EncodeChar c).head? = some (UInt8.ofNat d.toNat) ↔ c = d := by
  have hbyte : (UInt8.ofNat d.toNat).toNat = d.toNat := by
    rw [UInt8.toNat_ofNat', Nat.mod_eq_of_lt (by omega)]
  constructor
  · intro h
    have hc := Text.Utf8.toNat_eq_of_mem_utf8EncodeChar (hbyte.symm ▸ hd) (List.mem_of_mem_head? h)
    exact Char.toNat_inj.1 (hc.trans hbyte)
  · rintro rfl
    rw [Text.Utf8.utf8EncodeChar_of_ascii hd]
    rfl

theorem toByteArray_ofList_cons (c : Char) (cs : List Char) :
    (String.ofList (c :: cs)).toByteArray = (String.utf8EncodeChar c).toByteArray ++ cs.utf8Encode := by
  rw [String.toByteArray_ofList, List.utf8Encode_cons, List.utf8Encode_singleton]

theorem firstByte?_ofList_cons (c : Char) (cs : List Char) :
    firstByte? (String.ofList (c :: cs)) = (String.utf8EncodeChar c).head? := by
  rw [firstByte?, toByteArray_ofList_cons, ByteArray.data_append, List.data_toByteArray]
  cases h : String.utf8EncodeChar c with
  | nil => exact absurd h String.utf8EncodeChar_ne_nil
  | cons b bs =>
    rw [Array.getElem?_append_left (Nat.zero_lt_succ _)]
    rfl

theorem fromByte?_ofList_cons {c : Char} (hc : c.toNat < 128) (cs : List Char) :
    fromByte? (String.ofList (c :: cs)) 1 = some (String.ofList cs) := by
  have hbytes := toByteArray_ofList_cons c cs
  rw [Text.Utf8.utf8EncodeChar_of_ascii hc] at hbytes
  have hsize : (String.ofList (c :: cs)).utf8ByteSize = 1 + cs.utf8Encode.size := by
    rw [← String.size_toByteArray, hbytes, ByteArray.size_append]
    rfl
  have htail : ([UInt8.ofNat c.toNat].toByteArray ++ cs.utf8Encode).extract 1 (1 + cs.utf8Encode.size) =
      cs.utf8Encode := ByteArray.extract_append_eq_right rfl rfl
  rw [fromByte?, hsize, hbytes, htail, if_pos (Nat.le_add_right _ _), String.fromUTF8?,
    dif_pos ByteArray.isValidUTF8_utf8Encode]
  rfl

/-- Reading an item by its bytes does not fail, and gives what reading it by its characters gives. -/
theorem sortItemByBytes?_eq (h : item ≠ "") : sortItemByBytes? item = some (sortItem? item) := by
  obtain ⟨c, cs, hitem⟩ := List.exists_cons_of_ne_nil fun heq => h (String.toList_eq_nil_iff.1 heq)
  obtain rfl : item = String.ofList (c :: cs) := by rw [← hitem, String.ofList_toList]
  obtain ⟨b, hb⟩ := Option.ne_none_iff_exists'.1 fun hnone =>
    String.utf8EncodeChar_ne_nil (c := c) (List.head?_eq_none_iff.1 hnone)
  have hminus : b = 0x2D ↔ c = '-' := by
    rw [← head?_utf8EncodeChar_eq_some_iff (d := '-') (by decide), hb, Option.some.injEq]
    rfl
  have hplus : b = 0x2B ↔ c = '+' := by
    rw [← head?_utf8EncodeChar_eq_some_iff (d := '+') (by decide), hb, Option.some.injEq]
    rfl
  have hempty (cs : List Char) : String.ofList cs = "" ↔ cs.isEmpty = true := by
    rw [List.isEmpty_iff, ← String.toList_inj, String.toList_ofList]
    rfl
  unfold sortItemByBytes? sortItem?
  rw [firstByte?_ofList_cons, hb, String.toList_ofList]
  simp only [Option.bind_eq_bind, Option.bind_some, hminus, hplus]
  by_cases hm : c = '-'
  · subst hm
    rw [if_pos rfl, fromByte?_ofList_cons (by decide)]
    simp [hempty]
  · by_cases hp : c = '+'
    · subst hp
      rw [if_neg hm, if_pos rfl, fromByte?_ofList_cons (by decide)]
      simp [hempty]
    · rw [if_neg hm, if_neg hp]
      simp [hempty, hm, hp]

end ListQuery

end EntityRest
