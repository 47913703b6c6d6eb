import EntityRest.Json.Basic
import Mathlib.Algebra.Order.Field.Rat
import Mathlib.Algebra.Order.Ring.Abs
import Mathlib.Data.Rat.Cast.Order
import Mathlib.Order.Monotone.Basic
import Mathlib.Tactic.FieldSimp
import Mathlib.Tactic.Linarith
import Mathlib.Tactic.Ring

/-! # The values of doubles

The order of keys is the order of the numbers (`value_lt_value_iff`), and `ofInt` gives a double that is nearest to
its integer (`abs_value_ofInt_sub_le`), so rounding keeps the order (`Number.rounded_le_rounded`). Values are
compared as integers, in units of the least positive double. -/

namespace EntityRest

namespace Double

/-- The number that a double stands for. -/
def value (x : Double) : ℚ := (if x.negative then -1 else 1) * x.significand * 2 ^ x.exponent

/-! ### Units -/

/-- The least positive double is the inverse of this power of two. -/
def depth : Nat := 1074

/-- How many of the least positive doubles there are in one. -/
def perOne : Nat := 2 ^ depth

theorem perOne_pos : 0 < perOne := Nat.two_pow_pos depth

/-- The absolute value of the double with a pattern, in units of the least positive double. -/
def units (p : Nat) : Nat :=
  if p / hiddenBit = 0 then p else (hiddenBit + p % hiddenBit) * 2 ^ (p / hiddenBit - 1)

theorem units_zero : units 0 = 0 := rfl

/-- A significand of 53 bits, or the next power of two, in its place. -/
theorem units_add_mul {m : Nat} (hlow : hiddenBit ≤ m) (hhigh : m ≤ 2 * hiddenBit) (t : Nat) :
    units (m + t * hiddenBit) = m * 2 ^ t := by
  have hpos : 0 < hiddenBit := by decide
  unfold units
  rw [Nat.add_mul_div_right _ _ hpos, Nat.add_mul_mod_self_right]
  rcases Nat.lt_or_eq_of_le hhigh with hlt | rfl
  · have hdiv : m / hiddenBit = 1 := Nat.div_eq_of_lt_le (by omega) (by omega)
    have hmod : hiddenBit + m % hiddenBit = m := by
      have := Nat.div_add_mod m hiddenBit
      rw [hdiv] at this
      omega
    rw [hdiv, if_neg (by omega), hmod, Nat.add_comm 1 t, Nat.add_sub_cancel]
  · rw [Nat.mul_div_cancel _ hpos, if_neg (by omega), Nat.mul_mod_left, show 2 + t - 1 = t + 1 by omega, Nat.pow_succ]
    ring

theorem units_of_lt {p : Nat} (h : p < hiddenBit) : units p = p := if_pos (Nat.div_eq_of_lt h)

/-- Every pattern is that of a small number, or a significand of 53 bits in its place. -/
theorem exists_significand {p : Nat} (h : hiddenBit ≤ p) :
    ∃ m t, hiddenBit ≤ m ∧ m < 2 * hiddenBit ∧ p = m + t * hiddenBit := by
  have hpos : 0 < hiddenBit := by decide
  have hdiv := Nat.div_add_mod p hiddenBit
  have hmod := Nat.mod_lt p hpos
  have hone : 1 ≤ p / hiddenBit := (Nat.one_le_div_iff hpos).2 h
  obtain ⟨t, ht⟩ := Nat.exists_eq_add_of_le hone
  refine ⟨hiddenBit + p % hiddenBit, t, by omega, by omega, ?_⟩
  rw [ht, Nat.mul_add, Nat.mul_one, Nat.mul_comm hiddenBit t] at hdiv
  omega

theorem units_lt_succ (p : Nat) : units p < units (p + 1) := by
  rcases Nat.lt_or_ge p hiddenBit with hlt | hge
  · rw [units_of_lt hlt]
    rcases Nat.lt_or_eq_of_le (Nat.succ_le_of_lt hlt) with hlt' | heq
    · rw [units_of_lt hlt']; exact Nat.lt_succ_self p
    · have h := units_add_mul (m := p + 1) (by omega) (by omega) 0
      rw [Nat.zero_mul, Nat.add_zero, Nat.pow_zero, Nat.mul_one] at h
      rw [h]; exact Nat.lt_succ_self p
  · obtain ⟨m, t, hlow, hhigh, rfl⟩ := exists_significand hge
    rw [units_add_mul hlow hhigh.le, Nat.add_right_comm, units_add_mul (by omega) hhigh, Nat.succ_mul]
    exact Nat.lt_add_of_pos_right (Nat.two_pow_pos t)

theorem strictMono_units : StrictMono units := strictMono_nat_of_lt_succ units_lt_succ

/-- The value of a double in units of the least positive one. -/
def signedUnits (x : Double) : ℤ := if x.negative then -units x.pattern else units x.pattern

theorem value_eq (x : Double) : x.value = x.signedUnits / perOne := by
  have hpos : (perOne : ℚ) ≠ 0 := by exact_mod_cast perOne_pos.ne'
  have habs : (x.significand : ℚ) * 2 ^ x.exponent = units x.pattern / perOne := by
    have hone : (perOne : ℚ) = 2 ^ (depth : ℤ) := by rw [perOne, zpow_natCast]; push_cast; rfl
    rw [eq_div_iff hpos, hone, mul_assoc, ← zpow_add₀ two_ne_zero, units, significand, exponent, depth]
    generalize x.pattern / hiddenBit = k
    by_cases hk : k = 0
    · simp [hk]
    · have hexp : (k : ℤ) - 1075 + (1074 : Nat) = (k - 1 : Nat) := by omega
      rw [if_neg hk, if_neg hk, if_neg hk, hexp, zpow_natCast]
      push_cast
      rfl
  rw [value, mul_assoc, habs, signedUnits]
  split
  · push_cast; ring
  · push_cast; ring

theorem signedUnits_lt_signedUnits_iff {x y : Double} : x.signedUnits < y.signedUnits ↔ x.key < y.key := by
  have hlt : units x.pattern < units y.pattern ↔ x.pattern < y.pattern := strictMono_units.lt_iff_lt
  have hgt : units y.pattern < units x.pattern ↔ y.pattern < x.pattern := strictMono_units.lt_iff_lt
  have hzero : ∀ p, units p = 0 ↔ p = 0 := fun p => by
    rw [← units_zero, strictMono_units.injective.eq_iff, units_zero]
  have hx := hzero x.pattern
  have hy := hzero y.pattern
  unfold signedUnits key
  split <;> split <;> omega

theorem value_lt_value_iff {x y : Double} : x.value < y.value ↔ x.key < y.key := by
  have hpos : (0 : ℚ) < perOne := by exact_mod_cast perOne_pos
  rw [value_eq, value_eq, div_lt_div_iff_of_pos_right hpos, Int.cast_lt, signedUnits_lt_signedUnits_iff]

theorem value_eq_value_iff {x y : Double} : x.value = y.value ↔ x.key = y.key := by
  have hlt := value_lt_value_iff (x := x) (y := y)
  have hgt := value_lt_value_iff (x := y) (y := x)
  rw [eq_iff_le_not_lt, ← not_lt, hlt, hgt]
  omega

/-! ### Rounding -/

theorem two_mul_abs_roundDiv_sub_le (num : Nat) {den : Nat} (h : 0 < den) :
    2 * |(roundDiv num den * den : ℤ) - num| ≤ den := by
  have hdiv : ((num / den : Nat) : ℤ) * den + (num % den : Nat) = num := by
    exact_mod_cast Nat.div_add_mod' num den
  have hmod := Nat.mod_lt num h
  unfold roundDiv
  dsimp only
  generalize num / den = q at hdiv ⊢
  generalize num % den = r at hdiv hmod ⊢
  split
  · next hup =>
    have hhalf : den ≤ 2 * r := by
      rcases Bool.or_eq_true _ _ ▸ hup with hup | hup
      · exact (of_decide_eq_true hup).le
      · exact (beq_iff_eq.1 (Bool.and_eq_true _ _ ▸ hup).1).ge
    have heq : ((q + 1 : Nat) : ℤ) * den - num = den - r := by push_cast; linarith
    rw [heq, abs_of_nonneg (by omega)]
    omega
  · next hdown =>
    have hhalf : 2 * r ≤ den := by
      by_contra hlt
      exact hdown (by simp [Nat.lt_of_not_le hlt])
    have heq : (q : ℤ) * den - num = -r := by linarith
    rw [heq, abs_neg, abs_of_nonneg (by omega)]
    omega

theorem roundDiv_mul_of_dvd {num den : Nat} (hpos : 0 < den) (h : den ∣ num) : roundDiv num den * den = num := by
  have hmod : num % den = 0 := Nat.mod_eq_zero_of_dvd h
  unfold roundDiv
  dsimp only
  rw [hmod, if_neg (by simp; omega), Nat.div_mul_cancel h]

theorem roundDiv_mem (num den : Nat) : roundDiv num den = num / den ∨ roundDiv num den = num / den + 1 := by
  unfold roundDiv
  dsimp only
  split
  · exact .inr rfl
  · exact .inl rfl

theorem scaleOf_one {n : Nat} (h : n ≠ 0) : scaleOf n 1 = (n.log2 : ℤ) - 52 := by
  have hlog : 2 ^ n.log2 ≤ n := Nat.log2_self_le h
  have hsmall : ¬ n <<< (-((n.log2 : ℤ) - 52)).toNat < (1 <<< ((n.log2 : ℤ) - 52).toNat) * hiddenBit := by
    have hbit : hiddenBit = 2 ^ 52 := rfl
    rw [Nat.shiftLeft_eq, Nat.shiftLeft_eq, Nat.one_mul, hbit, ← Nat.pow_add, Nat.not_lt]
    calc 2 ^ (((n.log2 : ℤ) - 52).toNat + 52)
        ≤ 2 ^ (n.log2 + (-((n.log2 : ℤ) - 52)).toNat) := Nat.pow_le_pow_right two_pos (by omega)
      _ = 2 ^ n.log2 * 2 ^ (-((n.log2 : ℤ) - 52)).toNat := Nat.pow_add ..
      _ ≤ n * 2 ^ (-((n.log2 : ℤ) - 52)).toNat := Nat.mul_le_mul_right _ hlog
  have hone : Nat.log2 1 = 0 := by decide
  unfold scaleOf
  dsimp only
  rw [hone, Nat.cast_zero, sub_zero, if_neg (by simpa using hsmall)]
  omega

/-- A positive integer is rounded to a significand of 53 bits, at most half a place away. -/
structure Rounded (n m t : Nat) : Prop where
  low : hiddenBit ≤ m
  high : m ≤ 2 * hiddenBit
  place : hiddenBit * 2 ^ t ≤ n * perOne
  near : 2 * |(m * 2 ^ t : ℤ) - n * perOne| ≤ 2 ^ t
  exact : n ≤ 2 * hiddenBit → m * 2 ^ t = n * perOne

theorem rounded_of_log2_lt {n : Nat} (h : n ≠ 0) (hlog : n.log2 < 52) :
    Rounded n (n * 2 ^ (52 - n.log2)) (n.log2 + 1022) := by
  have hlow : 2 ^ n.log2 ≤ n := Nat.log2_self_le h
  have hhigh : n < 2 ^ (n.log2 + 1) := Nat.lt_log2_self
  have hpow : 2 ^ (52 - n.log2) * 2 ^ (n.log2 + 1022) = perOne := by
    rw [← Nat.pow_add, perOne, show 52 - n.log2 + (n.log2 + 1022) = depth by unfold depth; omega]
  have hexact : n * 2 ^ (52 - n.log2) * 2 ^ (n.log2 + 1022) = n * perOne := by rw [Nat.mul_assoc, hpow]
  have hm : hiddenBit ≤ n * 2 ^ (52 - n.log2) := by
    calc hiddenBit = 2 ^ n.log2 * 2 ^ (52 - n.log2) := by rw [← Nat.pow_add, Nat.add_sub_cancel' hlog.le]; rfl
      _ ≤ n * 2 ^ (52 - n.log2) := Nat.mul_le_mul_right _ hlow
  refine ⟨hm, ?_, ?_, ?_, fun _ => hexact⟩
  · calc n * 2 ^ (52 - n.log2) ≤ 2 ^ (n.log2 + 1) * 2 ^ (52 - n.log2) := Nat.mul_le_mul_right _ hhigh.le
      _ = 2 * hiddenBit := by rw [← Nat.pow_add, show n.log2 + 1 + (52 - n.log2) = 53 by omega]; rfl
  · rw [← hexact]; exact Nat.mul_le_mul_right _ hm
  · have hzero : ((n * 2 ^ (52 - n.log2) : Nat) : ℤ) * 2 ^ (n.log2 + 1022) - n * perOne = 0 := by
      rw [sub_eq_zero]; exact_mod_cast hexact
    rw [hzero]; simp

theorem rounded_of_le_log2 {n : Nat} (h : n ≠ 0) (hlog : 52 ≤ n.log2) :
    Rounded n (roundDiv n (2 ^ (n.log2 - 52))) (n.log2 + 1022) := by
  have hlow : 2 ^ n.log2 ≤ n := Nat.log2_self_le h
  have hhigh : n < 2 ^ (n.log2 + 1) := Nat.lt_log2_self
  obtain ⟨s, hs⟩ := Nat.exists_eq_add_of_le hlog
  rw [hs] at hlow hhigh
  rw [hs, Nat.add_sub_cancel_left]
  have hpow : 2 ^ (52 + s + 1022) = 2 ^ s * perOne := by
    rw [perOne, ← Nat.pow_add, show 52 + s + 1022 = s + depth by unfold depth; omega]
  have hpos : 0 < 2 ^ s := Nat.two_pow_pos s
  have hbit : hiddenBit * 2 ^ s = 2 ^ (52 + s) := (Nat.pow_add 2 52 s).symm
  have hdivLow : hiddenBit ≤ n / 2 ^ s := by
    rw [Nat.le_div_iff_mul_le hpos, hbit]; exact hlow
  have hdivHigh : n / 2 ^ s < 2 * hiddenBit := by
    rw [Nat.div_lt_iff_lt_mul hpos, Nat.mul_assoc, hbit, ← Nat.pow_succ']; exact hhigh
  have hmem := roundDiv_mem n (2 ^ s)
  refine ⟨by omega, by omega, ?_, ?_, fun hle => ?_⟩
  · rw [hpow, ← Nat.mul_assoc, hbit]; exact Nat.mul_le_mul_right _ hlow
  · have hnear := two_mul_abs_roundDiv_sub_le n hpos
    have hcast : (2 : ℤ) ^ (52 + s + 1022) = 2 ^ s * perOne := by exact_mod_cast hpow
    have heq : (roundDiv n (2 ^ s) : ℤ) * (2 ^ s * perOne) - n * perOne =
        (roundDiv n (2 ^ s) * (2 ^ s : Nat) - n) * perOne := by push_cast; ring
    rw [hcast, heq, abs_mul, Nat.abs_cast, ← mul_assoc]
    push_cast at hnear ⊢
    exact mul_le_mul_of_nonneg_right hnear (Int.natCast_nonneg _)
  · -- below the bound a place is at most two, and two goes into the bound itself
    have hsmall : 52 + s ≤ 53 := (Nat.pow_le_pow_iff_right Nat.one_lt_two).1 (hlow.trans hle)
    have hdvd : 2 ^ s ∣ n := by
      rcases Nat.eq_zero_or_pos s with rfl | hone
      · exact Nat.one_dvd n
      · obtain rfl : s = 1 := by omega
        obtain rfl : n = 2 * hiddenBit := le_antisymm hle hlow
        exact Nat.dvd_mul_right 2 hiddenBit
    rw [hpow, ← Nat.mul_assoc, roundDiv_mul_of_dvd hpos hdvd]

theorem exists_rounded {n : Nat} (h : n ≠ 0) :
    ∃ m, roundPattern n 1 = m + (n.log2 + 1022) * hiddenBit ∧ Rounded n m (n.log2 + 1022) := by
  have hround : roundPattern n 1 =
      roundDiv (n <<< (52 - n.log2)) (1 <<< (n.log2 - 52)) + (n.log2 + 1022) * hiddenBit := by
    unfold roundPattern
    dsimp only
    rw [if_neg h, scaleOf_one h, show (-((n.log2 : ℤ) - 52)).toNat = 52 - n.log2 by omega,
      show ((n.log2 : ℤ) - 52).toNat = n.log2 - 52 by omega,
      show ((n.log2 : ℤ) - 52 + 1074).toNat = n.log2 + 1022 by omega]
  rw [Nat.shiftLeft_eq, Nat.shiftLeft_eq, Nat.one_mul] at hround
  refine ⟨_, hround, ?_⟩
  rcases Nat.lt_or_ge n.log2 52 with hlt | hge
  · have hwhole := roundDiv_mul_of_dvd Nat.one_pos (Nat.one_dvd (n * 2 ^ (52 - n.log2)))
    rw [Nat.mul_one] at hwhole
    rw [Nat.sub_eq_zero_of_le hlt.le, Nat.pow_zero, hwhole]
    exact rounded_of_log2_lt h hlt
  · rw [Nat.sub_eq_zero_of_le hge, Nat.pow_zero, Nat.mul_one]
    exact rounded_of_le_log2 h hge

theorem units_succ_of_rounded {n m t : Nat} (h : Rounded n m t) :
    m * 2 ^ t + 2 ^ t ≤ units (m + t * hiddenBit + 1) := by
  rw [← Nat.succ_mul]
  rcases Nat.lt_or_eq_of_le h.high with hlt | heq
  · rw [Nat.add_right_comm, units_add_mul (h.low.trans (Nat.le_succ m)) hlt]
  · have hnext : m + t * hiddenBit + 1 = hiddenBit + 1 + (t + 1) * hiddenBit := by rw [heq]; ring
    rw [hnext, units_add_mul (Nat.le_succ _) (by decide), heq, Nat.pow_succ']
    calc (2 * hiddenBit + 1) * 2 ^ t ≤ (2 * (hiddenBit + 1)) * 2 ^ t := Nat.mul_le_mul_right _ (by omega)
      _ = (hiddenBit + 1) * (2 * 2 ^ t) := by ring

/-- No pattern is nearer to an integer than the one that it is rounded to. -/
theorem Rounded.nearest {n m t : Nat} (h : Rounded n m t) (p : Nat) :
    |(units (m + t * hiddenBit) : ℤ) - n * perOne| ≤ |(units p : ℤ) - n * perOne| := by
  have hunits : units (m + t * hiddenBit) = m * 2 ^ t := units_add_mul h.low h.high t
  have hnear : 2 * |(units (m + t * hiddenBit) : ℤ) - n * perOne| ≤ (2 ^ t : Nat) := by
    rw [hunits]; exact_mod_cast h.near
  have hle := le_abs_self ((units (m + t * hiddenBit) : ℤ) - n * perOne)
  have hge := neg_abs_le ((units (m + t * hiddenBit) : ℤ) - n * perOne)
  rcases Nat.lt_trichotomy p (m + t * hiddenBit) with hlt | rfl | hgt
  · have hp := neg_abs_le ((units p : ℤ) - n * perOne)
    rcases Nat.lt_or_eq_of_le h.low with hm | hm
    · -- the pattern before is a whole place below
      have hbefore : units p + 2 ^ t ≤ units (m + t * hiddenBit) := by
        have hmono := strictMono_units.monotone (Nat.le_sub_one_of_lt hlt)
        rw [Nat.sub_add_comm (by omega), units_add_mul (by omega) (by have := h.high; omega), Nat.sub_one_mul] at hmono
        have hplace : 2 ^ t ≤ m * 2 ^ t := Nat.le_mul_of_pos_left _ (by omega)
        rw [hunits]; omega
      zify at hbefore
      push_cast at hnear
      linarith
    · -- below the least significand places are smaller, but the integer is not below it
      have hplace : units (m + t * hiddenBit) ≤ n * perOne := by rw [hunits, ← hm]; exact h.place
      have hmono := (strictMono_units hlt).le
      zify at hplace hmono
      rw [abs_of_nonpos (by linarith), abs_of_nonpos (by linarith)]
      linarith
  · exact le_refl _
  · have hp := le_abs_self ((units p : ℤ) - n * perOne)
    have hafter : units (m + t * hiddenBit) + 2 ^ t ≤ units p := by
      rw [hunits]
      exact (units_succ_of_rounded h).trans (strictMono_units.monotone hgt)
    zify at hafter
    push_cast at hnear
    linarith

theorem negative_ofInt (n : ℤ) : (ofInt n).negative = decide (n < 0) := by
  unfold ofInt ofRatio?
  dsimp only
  split <;> rfl

/-- Beyond the largest double that one is the nearest. -/
theorem abs_units_ofInt_sub_le (n : ℤ) (y : Double) :
    |(units (ofInt n).pattern : ℤ) - n.natAbs * perOne| ≤ |(units y.pattern : ℤ) - n.natAbs * perOne| := by
  unfold ofInt ofRatio?
  dsimp only
  by_cases hn : n.natAbs = 0
  · have hzero : roundPattern n.natAbs 1 = 0 := by rw [hn]; rfl
    rw [dif_pos (by rw [hzero]; decide)]
    show |(units (roundPattern n.natAbs 1) : ℤ) - _| ≤ _
    rw [hzero, hn, units_zero, Nat.cast_zero, zero_mul, sub_zero, abs_zero]
    exact abs_nonneg _
  · obtain ⟨m, hround, hrounded⟩ := exists_rounded hn
    generalize n.natAbs.log2 + 1022 = t at hround hrounded
    split
    · show |(units (roundPattern n.natAbs 1) : ℤ) - _| ≤ _
      rw [hround]
      exact hrounded.nearest y.pattern
    · next hover =>
      show |(units (largest (decide (n < 0))).pattern : ℤ) - _| ≤ _
      have hy : units y.pattern ≤ units (largest (decide (n < 0))).pattern :=
        strictMono_units.monotone (Nat.le_of_lt_succ y.pattern_lt)
      have hlast : units (largest (decide (n < 0))).pattern < units (m + t * hiddenBit) := by
        rw [← hround]
        exact strictMono_units (Nat.lt_of_lt_of_le (Nat.lt_succ_self 0x7FEFFFFFFFFFFFFF) (Nat.le_of_not_lt hover))
      have hnear := hrounded.nearest (largest (decide (n < 0))).pattern
      zify at hy hlast
      -- were the integer not beyond the largest double, the pattern after that one would not be nearer
      have hbeyond : (units (largest (decide (n < 0))).pattern : ℤ) < n.natAbs * perOne := by
        by_contra hle
        rw [abs_of_nonneg (by linarith), abs_of_nonneg (by linarith)] at hnear
        linarith
      rw [abs_of_nonpos (by linarith), abs_of_nonpos (by linarith)]
      linarith

theorem abs_signedUnits_ofInt_sub_le (n : ℤ) (y : Double) :
    |(ofInt n).signedUnits - n * perOne| ≤ |y.signedUnits - n * perOne| := by
  have hnear := abs_units_ofInt_sub_le n y
  have hzero := abs_units_ofInt_sub_le n zero
  change |_| ≤ |(0 : ℤ) - _| at hzero
  have hn : n * (perOne : ℤ) = if n < 0 then -(n.natAbs * perOne : ℤ) else n.natAbs * perOne := by
    split
    · next hneg => rw [← neg_mul, Int.ofNat_natAbs_of_nonpos hneg.le, neg_neg]
    · next hpos => rw [Int.natAbs_of_nonneg (not_lt.1 hpos)]
  have hmag : 0 ≤ (n.natAbs * perOne : ℤ) := by exact_mod_cast Nat.zero_le (n.natAbs * perOne)
  unfold signedUnits
  rw [negative_ofInt, hn]
  generalize (n.natAbs * perOne : ℤ) = a at hnear hzero hmag ⊢
  rw [abs_eq_max_neg, abs_eq_max_neg] at hnear hzero ⊢
  by_cases hneg : n < 0 <;> cases y.negative <;> simp [hneg] <;> omega

/-- The double that an integer is turned into is a nearest one. -/
theorem abs_value_ofInt_sub_le (n : ℤ) (y : Double) : |(ofInt n).value - n| ≤ |y.value - n| := by
  have hpos : (0 : ℚ) < perOne := by exact_mod_cast perOne_pos
  have hscaled : ∀ x : Double, |x.value - n| = |x.signedUnits - n * perOne| / perOne := fun x => by
    rw [value_eq, eq_div_iff hpos.ne', ← abs_of_pos hpos, ← abs_mul, abs_of_pos hpos, sub_mul,
      div_mul_cancel₀ _ hpos.ne']
    push_cast
    rfl
  rw [hscaled, hscaled, div_le_div_iff_of_pos_right hpos]
  exact_mod_cast abs_signedUnits_ofInt_sub_le n y

theorem pattern_ofInt {n : ℤ} (h : roundPattern n.natAbs 1 < 0x7FF0000000000000) :
    (ofInt n).pattern = roundPattern n.natAbs 1 := by
  unfold ofInt ofRatio?
  dsimp only
  rw [dif_pos h]
  rfl

theorem exists_pattern_ofInt {n : ℤ} (hn : n.natAbs ≠ 0) (h : n.natAbs ≤ 2 ^ 53) :
    ∃ m t, (ofInt n).pattern = m + t * hiddenBit ∧ t ≤ 1075 ∧ Rounded n.natAbs m t := by
  obtain ⟨m, hround, hrounded⟩ := exists_rounded hn
  have hlog : n.natAbs.log2 ≤ 53 := (Nat.pow_le_pow_iff_right Nat.one_lt_two).1 ((Nat.log2_self_le hn).trans h)
  have hbound : m + (n.natAbs.log2 + 1022) * hiddenBit < 0x7FF0000000000000 := by
    have hhigh := hrounded.high
    unfold hiddenBit at hhigh ⊢
    omega
  exact ⟨m, _, (pattern_ofInt (hround ▸ hbound)).trans hround, by omega, hrounded⟩

theorem value_ofInt {n : ℤ} (h : n.natAbs ≤ 2 ^ 53) : (ofInt n).value = n := by
  have hunits : units (ofInt n).pattern = n.natAbs * perOne := by
    by_cases hn : n.natAbs = 0
    · have hzero : roundPattern n.natAbs 1 = 0 := by rw [hn]; rfl
      rw [pattern_ofInt (by rw [hzero]; decide), hzero, hn, Nat.zero_mul, units_zero]
    · obtain ⟨m, t, hpattern, -, hrounded⟩ := exists_pattern_ofInt hn h
      rw [hpattern, units_add_mul hrounded.low hrounded.high]
      exact hrounded.exact h
  have hsigned : (ofInt n).signedUnits = n * perOne := by
    rw [signedUnits, negative_ofInt, hunits, Nat.cast_mul]
    by_cases hneg : n < 0
    · rw [if_pos (decide_eq_true hneg), ← neg_mul, Int.ofNat_natAbs_of_nonpos hneg.le, neg_neg]
    · rw [if_neg (by simpa using hneg), Int.natAbs_of_nonneg (not_lt.1 hneg)]
  have hpos : (perOne : ℚ) ≠ 0 := by exact_mod_cast perOne_pos.ne'
  rw [value_eq, hsigned, Int.cast_mul, Int.cast_natCast, mul_div_cancel_right₀ _ hpos]

/-- A double whose exponent is greater by `t`. -/
theorem value_shift {x y : Double} {t : Nat} (hx : hiddenBit ≤ x.pattern) (hsign : y.negative = x.negative)
    (hpattern : y.pattern = x.pattern + t * hiddenBit) : y.value = x.value * 2 ^ t := by
  have hpos : 0 < hiddenBit := by decide
  have hdiv : y.pattern / hiddenBit = x.pattern / hiddenBit + t := by rw [hpattern, Nat.add_mul_div_right _ _ hpos]
  have hone : 1 ≤ x.pattern / hiddenBit := (Nat.one_le_div_iff hpos).2 hx
  have hsignificand : y.significand = x.significand := by
    rw [significand, significand, hdiv, if_neg (by omega), if_neg (by omega), hpattern, Nat.add_mul_mod_self_right]
  have hexponent : y.exponent = x.exponent + t := by
    rw [exponent, exponent, hdiv, if_neg (by omega), if_neg (by omega)]
    push_cast
    ring
  rw [value, value, hsign, hsignificand, hexponent, zpow_add₀ two_ne_zero, zpow_natCast]
  ring

/-- Multiples of 2048 that 64 bits hold are doubles. -/
theorem exists_value_eq {n : ℤ} (h : n.natAbs ≤ 2 ^ 53) : ∃ y : Double, y.value = n * 2 ^ 11 := by
  by_cases hn : n.natAbs = 0
  · refine ⟨zero, ?_⟩
    rw [Int.natAbs_eq_zero.1 hn, value_eq, Int.cast_zero, zero_mul]
    exact zero_div _
  · obtain ⟨m, t, hpattern, ht, hrounded⟩ := exists_pattern_ofInt hn h
    have hlow := hrounded.low
    have hhigh := hrounded.high
    have hbound : (ofInt n).pattern + 11 * hiddenBit < 0x7FF0000000000000 := by
      unfold hiddenBit at *
      omega
    have hshift : (⟨(ofInt n).negative, _, hbound⟩ : Double).value = (ofInt n).value * 2 ^ 11 :=
      value_shift (by omega) rfl rfl
    exact ⟨_, hshift.trans (by rw [value_ofInt h])⟩

end Double

namespace Number

/-- The number itself. -/
def value : Number → ℚ
  | int n => n
  | float x => x.value

/-- The value of the double that a number is turned into. -/
def rounded (n : Number) : ℚ := n.toDouble.value

theorem abs_rounded_sub_le (n : Number) (y : Double) : |n.rounded - n.value| ≤ |y.value - n.value| := by
  cases n with
  | int n => exact Double.abs_value_ofInt_sub_le n y
  | float x =>
    have hzero : (float x).rounded - (float x).value = 0 := sub_self _
    rw [hzero, abs_zero]
    exact abs_nonneg _

theorem rounded_eq_value_of_double {n : Number} {y : Double} (h : y.value = n.value) : n.rounded = n.value := by
  have hle := abs_rounded_sub_le n y
  rw [h, sub_self, abs_zero] at hle
  exact sub_eq_zero.1 (abs_eq_zero.1 (le_antisymm hle (abs_nonneg _)))

theorem rounded_congr {m n : Number} (h : m.value = n.value) : m.rounded = n.rounded := by
  cases m with
  | float x => rw [rounded_eq_value_of_double (y := x) h]; exact h
  | int m =>
    cases n with
    | float y => rw [rounded_eq_value_of_double (n := int m) (y := y) h.symm]; exact h
    | int n =>
      rw [Rat.intCast_inj.1 h]

theorem rounded_le_rounded {m n : Number} (h : m.value ≤ n.value) : m.rounded ≤ n.rounded := by
  by_contra hlt
  have hm := abs_rounded_sub_le m n.toDouble
  have hn := abs_rounded_sub_le n m.toDouble
  change |_| ≤ |n.rounded - _| at hm
  change |_| ≤ |m.rounded - _| at hn
  rw [not_le] at hlt
  -- neither of the numbers lies on the far side of the middle, so both are the middle itself
  have hmiddle : m.rounded + n.rounded ≤ 2 * m.value := by
    by_contra hcon
    have hnear : |n.rounded - m.value| < m.rounded - m.value := abs_lt.2 ⟨by linarith, by linarith⟩
    exact absurd (hm.trans_lt hnear) (not_lt.2 (le_abs_self _))
  have hmiddle' : 2 * n.value ≤ m.rounded + n.rounded := by
    by_contra hcon
    have hnear : |m.rounded - n.value| < -(n.rounded - n.value) := abs_lt.2 ⟨by linarith, by linarith⟩
    exact absurd (hn.trans_lt hnear) (not_lt.2 (neg_le_abs _))
  have heq : m.value = n.value := by linarith
  rw [rounded_congr heq] at hlt
  exact lt_irrefl _ hlt

/-- An integer of 53 bits is not changed by rounding, and a double never is. -/
theorem rounded_eq_value {n : Number} (h : ∀ k, n = int k → k.natAbs ≤ 2 ^ 53) : n.rounded = n.value := by
  cases n with
  | int n => exact Double.value_ofInt (h n rfl)
  | float x => rfl

end Number

end EntityRest
