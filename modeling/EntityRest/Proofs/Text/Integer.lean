import EntityRest.Proofs.Text.Items
import EntityRest.Text.Integer

/-! # Reading the decimal text of an integer back

An integer is written with digits, a sign where there is one, and blanks around it (`IsDecimal`); so is it in
particular by its own text (`isDecimal_toString`). However it is written, it is read as a 64-bit integer where
it is one, and otherwise not at all (`int64?_of_isDecimal`). Neither digits nor signs are blanks, so trimming
takes off what surrounds the number and no more. -/

namespace EntityRest.Text

/-- The first natural number that 64 bits with a sign do not hold. -/
def int64Bound : Nat := 0x8000000000000000

theorem inInt64_natCast (n : Nat) : inInt64 (n : Int) = decide (n < int64Bound) := by
  have hlow : -0x8000000000000000 ≤ (n : Int) := by omega
  have hhigh : (n : Int) < 0x8000000000000000 ↔ n < int64Bound := by unfold int64Bound; omega
  simp only [inInt64, hlow, hhigh, decide_true, Bool.true_and]

/-! ### Digits -/

/-- Digits that have a value; zeros before the others do not count. -/
structure IsDigits (cs : List Char) (n : Nat) : Prop where
  nonempty : cs ≠ []
  digit : ∀ c ∈ cs, c.isDigit = true
  value : Nat.ofDigitChars 10 cs 0 = n

theorem isDigits_toDigits (n : Nat) : IsDigits (Nat.toDigits 10 n) n where
  nonempty := Nat.toDigits_ne_nil
  digit _ h := Nat.isDigit_of_mem_toDigits (by omega) (by omega) h
  value := Nat.ofDigitChars_ten_toDigits

namespace IsDigits

variable {cs : List Char} {n : Nat} (h : IsDigits cs n)
include h

theorem natOfChars? : natOfChars? cs = some n := by
  have hvalue : natOfDigits cs = n := by
    have hvalue := h.value
    rw [Nat.ofDigitChars_eq_foldl] at hvalue
    simpa [natOfDigits, Nat.mul_comm] using hvalue
  have hall : cs.all Char.isDigit = true := List.all_eq_true.2 h.digit
  simp [Text.natOfChars?, h.nonempty, hall, hvalue]

theorem intOfChars? : intOfChars? cs = some (n : Int) := by
  unfold Text.intOfChars?
  split
  · exact absurd (h.digit '-' List.mem_cons_self) (by decide)
  · exact absurd (h.digit '+' List.mem_cons_self) (by decide)
  · rw [h.natOfChars?]; rfl

theorem isBlank {c : Char} (hc : c ∈ cs) : isBlank c = false := by
  have hdigit := Char.isDigit_iff_toNat.1 (h.digit c hc)
  have hlow : 48 ≤ c.toNat := hdigit.1
  have hhigh : c.toNat ≤ 57 := hdigit.2
  simp [Text.isBlank]
  omega

end IsDigits

theorem natOfChars?_toDigits (n : Nat) : natOfChars? (Nat.toDigits 10 n) = some n :=
  (isDigits_toDigits n).natOfChars?

/-! ### Integers -/

/-- Digits with or without a sign. -/
inductive IsSigned : List Char → Int → Prop
  | plain {cs : List Char} {n : Nat} (h : IsDigits cs n) : IsSigned cs n
  | plus {cs : List Char} {n : Nat} (h : IsDigits cs n) : IsSigned ('+' :: cs) n
  | minus {cs : List Char} {n : Nat} (h : IsDigits cs n) : IsSigned ('-' :: cs) (-n)

/-- A text that holds an integer in decimal, and blanks besides. -/
def IsDecimal (s : String) (n : Int) : Prop :=
  ∃ before cs after, s.toList = before ++ (cs ++ after) ∧ (∀ c ∈ before, isBlank c = true) ∧
    (∀ c ∈ after, isBlank c = true) ∧ IsSigned cs n

theorem IsSigned.isDecimal {s : String} {n : Int} (h : IsSigned s.toList n) : IsDecimal s n :=
  ⟨[], s.toList, [], by rw [List.append_nil, List.nil_append], nofun, nofun, h⟩

theorem toList_toString_ofNat (n : Nat) : (toString (Int.ofNat n)).toList = Nat.toDigits 10 n := by
  show (Nat.repr n).toList = _
  rw [Nat.toList_repr]

theorem toList_toString_negSucc (n : Nat) :
    (toString (Int.negSucc n)).toList = '-' :: Nat.toDigits 10 (n + 1) := by
  show ("-" ++ Nat.repr (n + 1)).toList = _
  rw [String.toList_append, Nat.toList_repr]
  rfl

theorem isDecimal_toString (n : Int) : IsDecimal (toString n) n := by
  refine IsSigned.isDecimal ?_
  cases n with
  | ofNat n =>
    rw [toList_toString_ofNat]
    exact .plain (isDigits_toDigits n)
  | negSucc n =>
    rw [toList_toString_negSucc]
    exact .minus (isDigits_toDigits (n + 1))

namespace IsSigned

variable {cs : List Char} {n : Int} (h : IsSigned cs n)
include h

theorem intOfChars? : intOfChars? cs = some n := by
  cases h with
  | plain h => exact h.intOfChars?
  | plus h => rw [Text.intOfChars?, h.natOfChars?]; rfl
  | minus h => rw [Text.intOfChars?, h.natOfChars?]; rfl

theorem ne_nil : cs ≠ [] := by
  cases h with
  | plain h => exact h.nonempty
  | plus h => exact List.cons_ne_nil _ _
  | minus h => exact List.cons_ne_nil _ _

theorem isBlank {c : Char} (hc : c ∈ cs) : isBlank c = false := by
  cases h with
  | plain h => exact h.isBlank hc
  | plus h =>
    rcases List.mem_cons.1 hc with rfl | hc
    · decide
    · exact h.isBlank hc
  | minus h =>
    rcases List.mem_cons.1 hc with rfl | hc
    · decide
    · exact h.isBlank hc

end IsSigned

/-- However an integer is written, it is read if 64 bits with a sign hold it, and only then. -/
theorem int64?_of_isDecimal {s : String} {n : Int} (h : IsDecimal s n) :
    int64? s = if inInt64 n then some n else none := by
  obtain ⟨before, cs, after, htext, hbefore, hafter, hcs⟩ := h
  have hfirst : ∀ c ∈ cs.head?, isBlank c = false := fun c hc => hcs.isBlank (List.mem_of_mem_head? hc)
  have hlast : ∀ c ∈ cs.getLast?, isBlank c = false := fun c hc => hcs.isBlank (List.mem_of_mem_getLast? hc)
  rw [int64?, htext, trimChars_append hbefore hafter hcs.ne_nil hfirst hlast, int64OfChars?,
    hcs.intOfChars?, Option.filter_some]

theorem int64?_toString (n : Nat) :
    int64? (toString n) = if n < int64Bound then some (n : Int) else none := by
  have h : int64? (toString n) = if inInt64 (n : Int) then some (n : Int) else none :=
    int64?_of_isDecimal (isDecimal_toString (n : Int))
  simpa only [inInt64_natCast, decide_eq_true_eq] using h

end EntityRest.Text
