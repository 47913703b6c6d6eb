import EntityRest.Text.Utf8
import Mathlib.Data.List.Basic

/-! # The bytes of a text

The bytes of a text are those of its characters, one after the other (`encode_ofList`). An ASCII character has
one byte, its code, and no byte of any other character is below 128 (`toNat_eq_of_mem_utf8EncodeChar`). -/

namespace EntityRest.Text.Utf8

theorem toList_loop_byteArray (bytes : ByteArray) (i : Nat) (read : List UInt8) :
    ByteArray.toList.loop bytes i read = read.reverse ++ bytes.data.toList.drop i := by
  fun_induction ByteArray.toList.loop bytes i read with
  | case1 i read hlt ih =>
    have hget : bytes.get! i = bytes.data.toList.get ⟨i, hlt⟩ := getElem!_pos bytes.data i hlt
    rw [ih, hget, List.reverse_cons, List.append_assoc, List.drop_eq_getElem_cons hlt]
    rfl
  | case2 i read hge => rw [List.drop_eq_nil_of_le (Nat.le_of_not_lt hge), List.append_nil]

theorem toList_byteArray (bytes : ByteArray) : bytes.toList = bytes.data.toList :=
  toList_loop_byteArray bytes 0 []

/-- The bytes of characters, one after the other. -/
def bytesOf (cs : List Char) : List Nat := cs.flatMap fun c => (String.utf8EncodeChar c).map UInt8.toNat

theorem encode_ofList (cs : List Char) : encode (String.ofList cs) = bytesOf cs := by
  rw [encode, toList_byteArray, String.toUTF8_eq_toByteArray, String.toByteArray_ofList, List.utf8Encode,
    List.data_toByteArray, List.map_flatMap]
  rfl

theorem bytesOf_cons (c : Char) (cs : List Char) : bytesOf (c :: cs) = bytesOf [c] ++ bytesOf cs := by
  rw [← List.singleton_append, bytesOf, List.flatMap_append]
  rfl

theorem bytesOf_append (cs ds : List Char) : bytesOf (cs ++ ds) = bytesOf cs ++ bytesOf ds :=
  List.flatMap_append

theorem utf8EncodeChar_of_ascii {c : Char} (hc : c.toNat < 128) :
    String.utf8EncodeChar c = [UInt8.ofNat c.toNat] :=
  if_pos (Nat.le_of_lt_succ hc)

theorem bytesOf_ascii {cs : List Char} (h : ∀ c ∈ cs, c.toNat < 128) : bytesOf cs = cs.map Char.toNat := by
  rw [List.map_eq_flatMap]
  refine List.flatMap_congr fun c hc => ?_
  have hlt := h c hc
  rw [utf8EncodeChar_of_ascii hlt, List.map_singleton, UInt8.toNat_ofNat', Nat.mod_eq_of_lt (by omega)]

theorem toNat_eq_of_mem_utf8EncodeChar {c : Char} {b : UInt8} (hb : b.toNat < 128)
    (h : b ∈ String.utf8EncodeChar c) : c.toNat = b.toNat := by
  have hbyte {n : Nat} (hn : n < 256) (heq : b = UInt8.ofNat n) : b.toNat = n := by
    rw [heq, UInt8.toNat_ofNat', Nat.mod_eq_of_lt hn]
  show c.val.toNat = b.toNat
  unfold String.utf8EncodeChar at h
  dsimp only at h
  split at h
  · exact (hbyte (by omega) (List.mem_singleton.1 h)).symm
  -- every byte of a longer encoding is 128 or more
  · exfalso
    split at h
    · simp only [List.mem_cons, List.not_mem_nil, or_false] at h
      rcases h with h | h <;> have := hbyte (by omega) h <;> omega
    · split at h
      · simp only [List.mem_cons, List.not_mem_nil, or_false] at h
        rcases h with h | h | h <;> have := hbyte (by omega) h <;> omega
      · simp only [List.mem_cons, List.not_mem_nil, or_false] at h
        rcases h with h | h | h | h <;> have := hbyte (by omega) h <;> omega

end EntityRest.Text.Utf8
