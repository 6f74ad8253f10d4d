import CssTypings.Number.Double
import Mathlib.Algebra.Group.Nat.Defs

/-!
# Integers as doubles

The double nearest to an integer has the sign of the integer, and it is zero for zero only
(`Double.isAtMostZero_of_ofInt?`). It exists for the integers that are nearer to a finite double
than to `2 ^ 1024`, where the doubles would go on if they did. The greatest finite double is `2 ^
1024 - 2 ^ 971`, and the integer halfway between the two (`Double.overflow`) has none: the even word
is that of `2 ^ 1024` (`Double.ofInt?_eq_none_iff`).
-/

namespace CssTypings.Double

variable {a b k : Nat} {n : Int} {d : Double}

/-! ### Rounding a quotient -/

/-- A quotient is rounded to more than `k` exactly above `k + 1 / 2`, and there if `k` is odd. -/
theorem lt_roundQuotient_iff (hb : 0 < b) :
    k < roundQuotient a b ↔
      (2 * k + 1) * b < 2 * a ∨ (2 * k + 1) * b = 2 * a ∧ k % 2 = 1 := by
  have ha := Nat.div_add_mod' a b
  have hr := Nat.mod_lt a hb
  have hmiddle : (2 * k + 1) * b = 2 * (k * b) + b := by
    rw [Nat.add_mul, Nat.one_mul, Nat.mul_assoc]
  simp only [roundQuotient, hmiddle]
  generalize a / b = q at *
  generalize a % b = r at *
  rcases Nat.lt_trichotomy k q with hk | rfl | hk
  · have hbelow := Nat.mul_le_mul_right b (Nat.succ_le_of_lt hk)
    rw [Nat.succ_mul] at hbelow
    split <;> omega
  · split <;> omega
  · have habove := Nat.mul_le_mul_right b (Nat.succ_le_of_lt hk)
    rw [Nat.succ_mul] at habove
    split <;> omega

theorem le_roundQuotient (hb : 0 < b) (h : (k + 1) * b ≤ a) : k + 1 ≤ roundQuotient a b := by
  refine (lt_roundQuotient_iff hb).2 (Or.inl ?_)
  rw [Nat.add_mul] at h ⊢
  rw [Nat.mul_assoc]
  omega

theorem roundQuotient_le (hb : 0 < b) (h : a < k * b) : roundQuotient a b ≤ k := by
  refine Nat.le_of_not_lt fun hlt ↦ ?_
  have habove := (lt_roundQuotient_iff hb).1 hlt
  rw [Nat.add_mul, Nat.mul_assoc] at habove
  omega

/-! ### Magnitudes -/

theorem exponent_one (ha : a ≠ 0) : exponent a 1 = a.log2 := by
  have hlog : Nat.log2 1 = 0 := by decide
  have hscaled : scaled a 1 (a.log2 : Int) = (a, 2 ^ a.log2) := by
    simp [scaled]
  simp only [exponent, hlog, Int.natCast_zero, Int.sub_zero, hscaled,
    if_neg (Nat.not_lt.2 (Nat.log2_self_le ha))]

/-- What is rounded to the mantissa of a natural number, as a quotient. -/
theorem exists_scaled (ha : a ≠ 0) :
    ∃ a' b', scaled a 1 (a.log2 - 52) = (a', b') ∧ 0 < b' ∧ 2 ^ 52 * b' ≤ a' ∧ a' < 2 ^ 53 * b' ∧
      (52 ≤ a.log2 → a' = a ∧ b' = 2 ^ (a.log2 - 52)) := by
  have hlower := Nat.log2_self_le ha
  have hupper := Nat.lt_log2_self (n := a)
  rcases Nat.lt_or_ge a.log2 52 with hsmall | hlarge
  · have hnegative : (-((a.log2 : Int) - 52)).toNat = 52 - a.log2 := by omega
    refine ⟨a * 2 ^ (52 - a.log2), 1, ?_, by decide, ?_, ?_, fun hlarge ↦ by omega⟩
    · rw [scaled, if_neg (by omega), hnegative]
      rfl
    · calc 2 ^ 52 * 1 = 2 ^ a.log2 * 2 ^ (52 - a.log2) := by
            rw [Nat.mul_one, ← Nat.pow_add, Nat.add_sub_cancel' (Nat.le_of_lt hsmall)]
        _ ≤ a * 2 ^ (52 - a.log2) := Nat.mul_le_mul_right _ hlower
    · calc a * 2 ^ (52 - a.log2) < 2 ^ (a.log2 + 1) * 2 ^ (52 - a.log2) :=
            Nat.mul_lt_mul_of_pos_right hupper (Nat.two_pow_pos _)
        _ = 2 ^ 53 * 1 := by
            rw [← Nat.pow_add, Nat.mul_one]
            congr 1
            omega
  · have hpositive : ((a.log2 : Int) - 52).toNat = a.log2 - 52 := by omega
    refine ⟨a, 2 ^ (a.log2 - 52), ?_, Nat.two_pow_pos _, ?_, ?_, fun _ ↦ ⟨rfl, rfl⟩⟩
    · rw [scaled, if_pos (by omega), hpositive, Nat.one_mul]
      rfl
    · rwa [← Nat.pow_add, Nat.add_sub_cancel' hlarge]
    · rw [← Nat.pow_add]
      rwa [show 53 + (a.log2 - 52) = a.log2 + 1 by omega]

/-- The magnitude nearest to a natural number. -/
theorem exists_magnitudeOf (ha : a ≠ 0) :
    ∃ a' b', magnitudeOf a 1 = min infinity ((a.log2 + 1022) * 2 ^ 52 + roundQuotient a' b') ∧
      2 ^ 52 ≤ roundQuotient a' b' ∧ roundQuotient a' b' ≤ 2 ^ 53 ∧
      (52 ≤ a.log2 → a' = a ∧ b' = 2 ^ (a.log2 - 52)) := by
  obtain ⟨a', b', hscaled, hb, hlower, hupper, hlarge⟩ := exists_scaled ha
  have he : max (-1074) ((a.log2 : Int) - 52) = a.log2 - 52 := by omega
  have hbias : ((a.log2 : Int) - 52 + 1074).toNat = a.log2 + 1022 := by omega
  refine ⟨a', b', ?_, le_roundQuotient hb hlower, roundQuotient_le hb hupper, hlarge⟩
  simp only [magnitudeOf, if_neg ha, exponent_one ha, he, hbias, hscaled, Nat.pow_eq]

/-- The natural number halfway between the greatest finite double and `2 ^ 1024`. -/
def overflow : Nat := 2 ^ 1024 - 2 ^ 970

theorem overflow_pos : 0 < overflow := by decide +kernel

/-- **Which natural numbers are rounded to infinity.** -/
theorem infinity_le_magnitudeOf_iff : infinity ≤ magnitudeOf a 1 ↔ overflow ≤ a := by
  by_cases ha : a = 0
  · subst ha
    decide +kernel
  obtain ⟨a', b', hmagnitude, hround, hround', hlarge⟩ := exists_magnitudeOf ha
  have hinfinity : infinity = 2047 * 2 ^ 52 := by decide
  -- powers are measured in the least of them, whose exponent is a variable so as not to be computed
  obtain ⟨e, he⟩ : ∃ e, e = 970 := ⟨970, rfl⟩
  have hpos := Nat.two_pow_pos e
  rw [hmagnitude, hinfinity, overflow, ← he, show 1024 = 54 + e by omega, Nat.pow_add]
  rcases Nat.lt_trichotomy a.log2 1023 with hbelow | hlog | habove
  · have hsmall : a < 2 ^ (53 + e) :=
      Nat.lt_of_lt_of_le Nat.lt_log2_self (Nat.pow_le_pow_right Nat.zero_lt_two (by omega))
    rw [Nat.pow_add] at hsmall
    omega
  · obtain ⟨rfl, rfl⟩ := hlarge (by omega)
    have hunit : 2 ^ (a'.log2 - 52) = 2 * 2 ^ e := by
      rw [show a'.log2 - 52 = e + 1 by omega, Nat.pow_succ']
    have hcarry := lt_roundQuotient_iff (a := a') (k := 2 ^ 53 - 1) (Nat.two_pow_pos (a'.log2 - 52))
    rw [hunit] at hcarry hround' ⊢
    omega
  · have hgreat : 2 ^ (54 + e) ≤ a :=
      Nat.le_trans (Nat.pow_le_pow_right Nat.zero_lt_two (by omega)) (Nat.log2_self_le ha)
    rw [Nat.pow_add] at hgreat
    omega

/-- **Which integers no double is near to.** -/
theorem ofInt?_eq_none_iff : ofInt? n = none ↔ overflow ≤ n.natAbs := by
  rw [← infinity_le_magnitudeOf_iff]
  simp [ofInt?]

theorem magnitudeOf_pos (ha : a ≠ 0) : 0 < magnitudeOf a 1 := by
  obtain ⟨a', b', hmagnitude, hround, -⟩ := exists_magnitudeOf ha
  rw [hmagnitude, infinity]
  omega

/-! ### Signs -/

/-- A number above zero. Infinity is one. -/
def IsPositive : Double → Prop
  | nan => False
  | number negative magnitude => negative = false ∧ 0 < magnitude

/-- What is neither zero nor less is above zero, unless it is not a number. -/
theorem isAtMostZero_eq_false_iff : d.isAtMostZero = false ↔ d = nan ∨ d.IsPositive := by
  cases d with
  | nan => simp [isAtMostZero]
  | number negative magnitude => simp [isAtMostZero, IsPositive, Nat.pos_iff_ne_zero]

theorem eq_number_of_ofInt? (h : ofInt? n = some d) :
    d = number (decide (n < 0)) (magnitudeOf n.natAbs 1) := by
  simp only [ofInt?, Option.ite_none_right_eq_some] at h
  exact (Option.some.inj h.2).symm

/-- **The double nearest to an integer has its sign.** -/
theorem isAtMostZero_of_ofInt? (h : ofInt? n = some d) : d.isAtMostZero = true ↔ n ≤ 0 := by
  obtain rfl := eq_number_of_ofInt? h
  rcases Int.lt_trichotomy n 0 with hn | rfl | hn
  · simp [isAtMostZero, hn, Int.le_of_lt hn]
  · decide
  · have hmagnitude := magnitudeOf_pos (a := n.natAbs) (by omega)
    have hnegative : decide (n < 0) = false := decide_eq_false (Int.not_lt.2 (Int.le_of_lt hn))
    rw [isAtMostZero, hnegative, Bool.false_or, beq_iff_eq]
    omega

end CssTypings.Double
