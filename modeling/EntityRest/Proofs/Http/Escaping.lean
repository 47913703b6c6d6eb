import EntityRest.Http.FormQuery
import EntityRest.Proofs.Http.Segments
import EntityRest.Proofs.Text.Utf8

/-! # Percent signs

To be one segment of a path, a text is written with a percent sign and two digits for every byte of the
characters that are not kept. What comes out is a segment whatever the text is (`isSegment_percentEncode`), and
it is the text itself only if all its characters are kept (`percentEncode_eq_self_iff`). Reading a query takes
the percent signs away again (`unescape_percentEncode`). -/

namespace EntityRest.Http

/-- A hexadecimal digit, in upper case. -/
def hexDigit (n : Nat) : Char := Char.ofNat (if n < 10 then 48 + n else 55 + n)

def escapeByte (b : UInt8) : List Char := ['%', hexDigit (b.toNat / 16), hexDigit (b.toNat % 16)]

/-- A character as it is written in a path: as it is, or as its bytes. -/
def encodeChar (keeps : Char → Bool) (c : Char) : List Char :=
  if keeps c then [c] else (String.utf8EncodeChar c).flatMap escapeByte

/-- A text as it is written in a path. Encoders differ in the characters that they keep. -/
def percentEncode (keeps : Char → Bool) (s : String) : String :=
  String.ofList (s.toList.flatMap (encodeChar keeps))

/-- The characters that every encoder keeps. -/
def isUnreserved (c : Char) : Bool := c.isAlphanum || c = '-' || c = '.' || c = '_' || c = '~'

section

variable {keeps : Char → Bool} {c : Char} {s : String}

theorem encodeChar_of_keeps (h : keeps c = true) : encodeChar keeps c = [c] := if_pos h

theorem encodeChar_of_not_keeps (h : keeps c = false) :
    encodeChar keeps c = (String.utf8EncodeChar c).flatMap escapeByte :=
  if_neg (by simp [h])

theorem one_lt_length_encodeChar (h : keeps c = false) : 1 < (encodeChar keeps c).length := by
  obtain ⟨b, bs, hbytes⟩ := List.exists_cons_of_ne_nil (String.utf8EncodeChar_ne_nil (c := c))
  rw [encodeChar_of_not_keeps h, hbytes]
  simp [escapeByte]

theorem encodeChar_ne_nil : encodeChar keeps c ≠ [] := by
  cases h : keeps c with
  | true => rw [encodeChar_of_keeps h]; exact List.cons_ne_nil _ _
  | false => exact List.ne_nil_of_length_pos (Nat.zero_lt_of_lt (one_lt_length_encodeChar h))

theorem length_le_flatMap_encodeChar (keeps : Char → Bool) (cs : List Char) :
    cs.length ≤ (cs.flatMap (encodeChar keeps)).length := by
  induction cs with
  | nil => exact Nat.le_refl _
  | cons c cs ih =>
    have hpos : 0 < (encodeChar keeps c).length := List.length_pos_iff.2 encodeChar_ne_nil
    rw [List.flatMap_cons, List.length_append, List.length_cons]
    omega

/-- A character that is not kept makes the text longer. -/
theorem flatMap_encodeChar_eq_self_iff (cs : List Char) :
    cs.flatMap (encodeChar keeps) = cs ↔ ∀ c ∈ cs, keeps c = true := by
  induction cs with
  | nil => simp
  | cons c cs ih =>
    rw [List.flatMap_cons, List.forall_mem_cons]
    cases h : keeps c with
    | true => rw [encodeChar_of_keeps h, List.singleton_append, List.cons_inj_right, ih, and_iff_right rfl]
    | false =>
      have hlonger := one_lt_length_encodeChar h
      have hrest := length_le_flatMap_encodeChar keeps cs
      refine iff_of_false (fun heq => ?_) fun hkeeps => Bool.false_ne_true hkeeps.1
      have hlength := congrArg List.length heq
      rw [List.length_append, List.length_cons] at hlength
      omega

theorem percentEncode_eq_self_iff : percentEncode keeps s = s ↔ ∀ c ∈ s.toList, keeps c = true := by
  rw [← flatMap_encodeChar_eq_self_iff, ← String.toList_inj, percentEncode, String.toList_ofList]

theorem hexDigit_ne_slash : ∀ n < 16, hexDigit n ≠ '/' := by decide

theorem slash_not_mem_escapeByte (b : UInt8) : '/' ∉ escapeByte b := by
  have hb : b.toNat < 256 := b.toNat_lt
  have hhigh := hexDigit_ne_slash (b.toNat / 16) (by omega)
  have hlow := hexDigit_ne_slash (b.toNat % 16) (by omega)
  simp [escapeByte, hhigh.symm, hlow.symm]

/-- Where slashes are not kept, every text but the empty one is written as a segment. -/
theorem isSegment_percentEncode (hkeeps : keeps '/' = false) (hs : s ≠ "") : IsSegment (percentEncode keeps s) := by
  obtain ⟨c, cs, htext⟩ := List.exists_cons_of_ne_nil fun hnil => hs (String.toList_eq_nil_iff.1 hnil)
  constructor
  · intro hempty
    have hnil := congrArg String.toList hempty
    rw [percentEncode, String.toList_ofList, htext, List.flatMap_cons] at hnil
    exact encodeChar_ne_nil (List.append_eq_nil_iff.1 hnil).1
  · rw [percentEncode, String.toList_ofList, List.mem_flatMap]
    rintro ⟨c, -, hslash⟩
    cases h : keeps c with
    | true =>
      rw [encodeChar_of_keeps h, List.mem_singleton] at hslash
      rw [← hslash, hkeeps] at h
      cases h
    | false =>
      rw [encodeChar_of_not_keeps h] at hslash
      obtain ⟨b, -, hb⟩ := List.mem_flatMap.1 hslash
      exact slash_not_mem_escapeByte b hb

end

/-! ### Taking the percent signs away -/

section

open FormQuery (unescape hexByte?)
open Text.Utf8 (bytesOf encode)

variable {keeps : Char → Bool}

theorem unescape_append {bytes : List Nat} (h : ∀ b ∈ bytes, b ≠ 0x25 ∧ b ≠ 0x2B) (rest : List Nat) :
    unescape (bytes ++ rest) = bytes ++ unescape rest := by
  induction bytes with
  | nil => rfl
  | cons b bytes ih =>
    obtain ⟨⟨hpercent, hplus⟩, hbytes⟩ := List.forall_mem_cons.1 h
    rw [List.cons_append, List.cons_append, ← ih hbytes]
    rw [unescape] <;> simp [hpercent, hplus]

theorem hexByte?_hexDigit : ∀ n < 16, hexByte? (hexDigit n).toNat = some n := by decide

theorem hexDigit_lt : ∀ n < 16, (hexDigit n).toNat < 128 := by decide

theorem unescape_escapeByte (b : UInt8) (rest : List Nat) :
    unescape (bytesOf (escapeByte b) ++ rest) = b.toNat :: unescape rest := by
  have hb : b.toNat < 256 := b.toNat_lt
  have hhigh : b.toNat / 16 < 16 := by omega
  have hlow : b.toNat % 16 < 16 := by omega
  have hascii : ∀ c ∈ escapeByte b, c.toNat < 128 := by
    simp [escapeByte, hexDigit_lt _ hhigh, hexDigit_lt _ hlow]
  rw [Text.Utf8.bytesOf_ascii hascii]
  show unescape (0x25 :: (hexDigit (b.toNat / 16)).toNat :: (hexDigit (b.toNat % 16)).toNat :: rest) = _
  rw [unescape, hexByte?_hexDigit _ hhigh, hexByte?_hexDigit _ hlow]
  dsimp only
  rw [Nat.div_add_mod']

theorem unescape_flatMap_escapeByte (bytes : List UInt8) (rest : List Nat) :
    unescape (bytesOf (bytes.flatMap escapeByte) ++ rest) = bytes.map UInt8.toNat ++ unescape rest := by
  induction bytes with
  | nil => rfl
  | cons b bytes ih =>
    rw [List.flatMap_cons, Text.Utf8.bytesOf_append, List.append_assoc, unescape_escapeByte, ih]
    rfl

variable (hpercent : keeps '%' = false) (hplus : keeps '+' = false)
include hpercent hplus

theorem unescape_encodeChar (c : Char) (rest : List Nat) :
    unescape (bytesOf (encodeChar keeps c) ++ rest) = bytesOf [c] ++ unescape rest := by
  have hbytes : bytesOf [c] = (String.utf8EncodeChar c).map UInt8.toNat := List.flatMap_singleton ..
  cases h : keeps c with
  | true =>
    rw [encodeChar_of_keeps h]
    refine unescape_append (fun b hb => ?_) rest
    rw [hbytes] at hb
    obtain ⟨b, hmem, rfl⟩ := List.mem_map.1 hb
    have hne {d : Char} (hd : keeps d = false) (hascii : d.toNat < 128) : b.toNat ≠ d.toNat := fun heq => by
      have hc := Text.Utf8.toNat_eq_of_mem_utf8EncodeChar (heq ▸ hascii) hmem
      rw [Char.toNat_inj.1 (hc.trans heq), hd] at h
      cases h
    exact ⟨hne hpercent (by decide), hne hplus (by decide)⟩
  | false => rw [encodeChar_of_not_keeps h, unescape_flatMap_escapeByte, hbytes]

/-- A query decodes what a path is left with. -/
theorem unescape_percentEncode (s : String) : unescape (encode (percentEncode keeps s)) = encode s := by
  have hchars : ∀ cs : List Char, unescape (bytesOf (cs.flatMap (encodeChar keeps))) = bytesOf cs := by
    intro cs
    induction cs with
    | nil => rfl
    | cons c cs ih =>
      rw [List.flatMap_cons, Text.Utf8.bytesOf_append, unescape_encodeChar hpercent hplus, ih,
        ← Text.Utf8.bytesOf_cons]
  rw [percentEncode, Text.Utf8.encode_ofList, hchars, ← Text.Utf8.encode_ofList, String.ofList_toList]

end

end EntityRest.Http
