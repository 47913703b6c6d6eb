import EntityRest.Proofs.Http.Segments
import EntityRest.Text.LowerCase

/-! # Lower case, segment by segment

The small form of a letter depends on the letters around it, but not across a slash (`lower_join`), and no
other character becomes a slash (`isSegment_lower`). So a path and its small form have the same segments, up
to case. -/

namespace EntityRest.Text

/-! ### No other character becomes a slash -/

theorem ofNat_ne_slash {n : Nat} (h : 0x2F < n) : Char.ofNat n ≠ '/' := by
  by_cases hn : n.isValidChar
  · intro heq
    have hval : n = (Char.ofNat n).toNat := by rw [Char.ofNat, dif_pos hn]; rfl
    have hslash : '/'.toNat = 0x2F := rfl
    rw [heq, hslash] at hval
    omega
  · rw [Char.ofNat, dif_neg hn]
    decide

theorem toLower_eq_slash {c : Char} (h : c.toLower = '/') : c = '/' := by
  unfold Char.toLower at h
  split at h
  · next hc =>
    have hval : (c.val + 32).toNat = 47 := congrArg Char.toNat h
    have hlow : 65 ≤ c.val.toNat := hc.1
    have hhigh : c.val.toNat ≤ 90 := hc.2
    have hshift : (32 : UInt32).toNat = 32 := rfl
    rw [UInt32.toNat_add, hshift] at hval
    omega
  · exact h

theorem lt_of_mem_runs : ∀ r ∈ CaseTable.runs, 0x2F < (r.first : Int) + r.shift := by decide +kernel

theorem lowerChar_eq_slash {c : Char} (h : lowerChar c = '/') : c = '/' := by
  unfold lowerChar at h
  split at h
  · exact toLower_eq_slash h
  · split at h
    · next r hr =>
      have hmem := lt_of_mem_runs r (List.mem_of_find?_eq_some hr)
      have hfirst := List.find?_some hr
      simp only [Bool.and_eq_true, decide_eq_true_eq] at hfirst
      exact absurd h (ofNat_ne_slash (by omega))
    · exact h

theorem slash_not_mem_lowerChars {before cs : List Char} (h : '/' ∉ cs) : '/' ∉ lowerChars before cs := by
  induction cs generalizing before with
  | nil => simp [lowerChars]
  | cons c cs ih =>
    rw [List.mem_cons, not_or] at h
    obtain ⟨hc, hcs⟩ := h
    have hsmall : '/' ≠ lowerChar c := fun heq => hc (lowerChar_eq_slash heq.symm).symm
    rw [lowerChars, List.mem_append, not_or]
    refine ⟨?_, ih hcs⟩
    split
    · split <;> decide
    · split
      · decide
      · simpa using hsmall

/-! ### A slash ends what a letter depends on -/

theorem isIgnorable_slash : isIgnorable '/' = false := by decide +kernel

theorem isCased_slash : isCased '/' = false := by decide +kernel

theorem startsCased_append_slash (xs ys : List Char) : startsCased (xs ++ '/' :: ys) = startsCased xs := by
  unfold startsCased
  induction xs with
  | nil => simp [isIgnorable_slash, isCased_slash]
  | cons x xs ih =>
    cases hx : isIgnorable x with
    | true => simpa [hx] using ih
    | false => simp [hx]

theorem lowerChars_before_slash (xs ys cs : List Char) :
    lowerChars (xs ++ '/' :: ys) cs = lowerChars xs cs := by
  induction cs generalizing xs with
  | nil => rfl
  | cons c cs ih =>
    have hrest : lowerChars (c :: (xs ++ '/' :: ys)) cs = lowerChars (c :: xs) cs := ih (c :: xs)
    rw [lowerChars, lowerChars, startsCased_append_slash, hrest]

theorem lowerChars_append_slash (before cs rest : List Char) :
    lowerChars before (cs ++ '/' :: rest) = lowerChars before cs ++ '/' :: lowerChars [] rest := by
  induction cs generalizing before with
  | nil =>
    have hrest : lowerChars ('/' :: before) rest = lowerChars [] rest := lowerChars_before_slash [] before rest
    have hslash : lowerChar '/' = '/' := rfl
    simp [lowerChars, hrest, hslash]
  | cons c cs ih =>
    rw [List.cons_append, lowerChars, lowerChars, startsCased_append_slash, ih (c :: before),
      List.append_assoc]

/-! ### Paths -/

theorem lower_join (s t : String) : lower (s ++ "/" ++ t) = lower s ++ "/" ++ lower t := by
  have hjoin : (s ++ "/" ++ t).toList = s.toList ++ '/' :: t.toList := by simp [String.toList_append]
  refine String.toList_inj.1 ?_
  simp [lower, hjoin, lowerChars_append_slash, String.toList_append]

theorem lower_eq_empty {s : String} (h : lower s = "") : s = "" := by
  have hnil : lowerChars [] s.toList = [] := by simpa [lower] using congrArg String.toList h
  cases hs : s.toList with
  | nil => exact String.toList_inj.1 (by rw [hs, String.toList_empty])
  | cons c cs =>
    rw [hs, lowerChars] at hnil
    split at hnil
    · simp at hnil
    · split at hnil <;> simp at hnil

theorem isSegment_lower {s : String} (h : IsSegment s) : IsSegment (lower s) := by
  constructor
  · exact fun heq => h.1 (lower_eq_empty heq)
  · rw [lower, String.toList_ofList]
    exact slash_not_mem_lowerChars h.2

end EntityRest.Text
