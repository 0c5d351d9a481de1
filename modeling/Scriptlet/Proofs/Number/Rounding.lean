import Mathlib.Algebra.Group.Nat.Defs
import Mathlib.Order.Monotone.Basic
import Scriptlet.Number.Decimal

/-! Rounding to ranks. The worths of the ranks grow strictly, so the rank below an amount is the
one whose worth and whose successor's worth enclose it, and a fraction rounds to a rank exactly
when it lies between the points half way to the two neighbours. -/
namespace Scriptlet
namespace Number

/-- Every rank is a significand of at most 53 bits above a number of dropped bits. -/
theorem exists_significand (n : Nat) : ∃ dropped significand,
    n = dropped * scaleSize + significand ∧ significand < 2 * scaleSize ∧
      (dropped = 0 ∨ scaleSize ≤ significand) := by
  refine ⟨n / scaleSize - 1, n - (n / scaleSize - 1) * scaleSize, ?_⟩
  simp only [scaleSize]
  omega

/-- The worth of a rank shifts its significand; the significand that has just outgrown its scale
is worth the same in the next one. -/
theorem units_significand {dropped significand : Nat} (within : significand ≤ 2 * scaleSize)
    (full : dropped = 0 ∨ scaleSize ≤ significand) :
    units (dropped * scaleSize + significand) = significand * 2 ^ dropped := by
  have positive : 0 < scaleSize := by decide
  by_cases small : dropped * scaleSize + significand < scaleSize
  · have zero : dropped = 0 := by
      apply full.resolve_right
      intro above
      omega
    subst zero
    rw [units, if_pos small, Nat.zero_mul, Nat.zero_add, Nat.pow_zero, Nat.mul_one]
  · have above : scaleSize ≤ significand := by
      refine full.elim (fun zero => ?_) id
      subst zero
      omega
    rw [units, if_neg small, Nat.shiftLeft_eq]
    by_cases outgrown : significand = 2 * scaleSize
    · have split : dropped * scaleSize + significand = scaleSize * (dropped + 2) := by
        rw [outgrown, Nat.mul_comm, ← Nat.mul_comm scaleSize 2, ← Nat.mul_add]
      rw [split, Nat.mul_mod_right, Nat.mul_div_cancel_left _ positive, outgrown,
        show dropped + 2 - 1 = dropped + 1 from rfl, Nat.pow_succ, Nat.add_zero,
        Nat.mul_comm 2 scaleSize, Nat.mul_assoc, Nat.mul_comm 2]
    · have split : dropped * scaleSize + significand =
          (significand - scaleSize) + scaleSize * (dropped + 1) := by
        rw [Nat.mul_add, Nat.mul_comm]
        omega
      have less : significand - scaleSize < scaleSize := by omega
      rw [split, Nat.add_mul_mod_self_left, Nat.mod_eq_of_lt less,
        Nat.add_mul_div_left _ _ positive, Nat.div_eq_of_lt less, Nat.zero_add,
        Nat.add_sub_cancel, Nat.add_sub_cancel' above]

theorem units_strictMono : StrictMono units := by
  apply strictMono_nat_of_lt_succ
  intro n
  obtain ⟨dropped, significand, rfl, within, full⟩ := exists_significand n
  rw [units_significand (Nat.le_of_lt within) full, Nat.add_assoc,
    units_significand within (full.imp_right Nat.le_succ_of_le)]
  exact Nat.mul_lt_mul_of_pos_right (Nat.lt_succ_self _) (Nat.two_pow_pos _)

theorem units_infinityRank : units infinityRank = scaleSize * 2 ^ 2046 := by
  have split : infinityRank = 2046 * scaleSize + scaleSize := rfl
  rw [split, units_significand (by decide) (.inr (Nat.le_refl _))]

/-- The rank below an amount is worth at most the amount, and the next rank is worth more. -/
theorem rankBelow_spec (amount : Nat) :
    units (rankBelow amount) ≤ amount ∧ amount < units (rankBelow amount + 1) := by
  have size : scaleSize = 2 ^ 52 := rfl
  rw [rankBelow]
  generalize droppedDef : amount.log2 - 52 = dropped
  have lower : amount >>> dropped * 2 ^ dropped ≤ amount := by
    rw [Nat.shiftRight_eq_div_pow]
    exact Nat.div_mul_le_self _ _
  have upper : amount < (amount >>> dropped + 1) * 2 ^ dropped := by
    rw [Nat.shiftRight_eq_div_pow]
    exact Nat.lt_mul_of_div_lt (Nat.lt_succ_self _) (Nat.two_pow_pos _)
  have within : amount >>> dropped < 2 * scaleSize := by
    rw [Nat.shiftRight_eq_div_pow, Nat.div_lt_iff_lt_mul (Nat.two_pow_pos _), size,
      ← Nat.pow_succ', ← Nat.pow_add]
    exact Nat.lt_of_lt_of_le Nat.lt_log2_self (Nat.pow_le_pow_right (by decide) (by omega))
  have full : dropped = 0 ∨ scaleSize ≤ amount >>> dropped := by
    apply (Nat.eq_zero_or_pos dropped).imp_right
    intro positive
    have nonzero : amount ≠ 0 := fun zero => by
      rw [zero, Nat.log2_zero] at droppedDef
      omega
    rw [Nat.shiftRight_eq_div_pow, Nat.le_div_iff_mul_le (Nat.two_pow_pos _), size, ← Nat.pow_add]
    exact Nat.le_trans (Nat.pow_le_pow_right (by decide) (by omega)) (Nat.log2_self_le nonzero)
  rw [units_significand (Nat.le_of_lt within) full, Nat.add_assoc,
    units_significand within (full.imp_right Nat.le_succ_of_le)]
  exact ⟨lower, upper⟩

/-- Rounding goes no further than the next rank. -/
theorem nearestRank_le_of_lt {n num den : Nat} (less : num / den < units n) :
    nearestRank num den ≤ n := by
  have below := (rankBelow_spec (num / den)).1
  have before : rankBelow (num / den) < n :=
    units_strictMono.lt_iff_lt.mp (Nat.lt_of_le_of_lt below less)
  rw [nearestRank]
  refine Nat.le_trans (Nat.min_le_left _ _) ?_
  generalize rankBelow (num / den) = below at before ⊢
  split
  · exact Nat.le_of_lt before
  · exact Nat.le_trans (Nat.add_le_add_left (Nat.le_of_lt_succ (Nat.mod_lt _ (by decide))) _) before
  · exact before

/-- The worth half way between a rank and the next one, in half units. -/
def midpoint (n : Nat) : Nat := units n + units (n + 1)

theorem midpoint_lt_twice {m n : Nat} (before : m < n) : midpoint m < 2 * units n := by
  have less := units_strictMono (Nat.lt_succ_self m)
  have least := units_strictMono.monotone (Nat.succ_le_of_lt before)
  simp only [midpoint, Nat.succ_eq_add_one] at *
  omega

theorem twice_lt_midpoint {m n : Nat} (before : m ≤ n) : 2 * units m < midpoint n := by
  have less := units_strictMono (Nat.lt_succ_self n)
  have least := units_strictMono.monotone before
  simp only [midpoint, Nat.succ_eq_add_one] at *
  omega

/-- Where the fraction `num / den` of a unit count rounds to a rank: between the points half way to
its neighbours, which themselves round to even ranks. Zero has no neighbour below it. -/
structure Rounds (n num den : Nat) : Prop where
  lower : (units (n - 1) + units n) * den ≤ 2 * num
  upper : 2 * num ≤ midpoint n * den
  even : n % 2 = 1 → (units (n - 1) + units n) * den ≠ 2 * num ∧ 2 * num ≠ midpoint n * den

theorem nearestRank_eq {n num den : Nat} (positive : 0 < den) (rounds : Rounds n num den)
    (finite : n ≤ infinityRank) : nearestRank num den = n := by
  obtain ⟨below, above⟩ := rankBelow_spec (num / den)
  rw [Nat.le_div_iff_mul_le positive] at below
  rw [Nat.div_lt_iff_lt_mul positive] at above
  obtain ⟨lower, upper, even⟩ := rounds
  have notAfter : rankBelow (num / den) ≤ n := by
    apply Nat.le_of_not_lt
    intro after
    have less := Nat.mul_lt_mul_of_pos_right (midpoint_lt_twice after) positive
    rw [Nat.mul_assoc] at less
    omega
  have notBefore : n ≤ rankBelow (num / den) + 1 := by
    apply Nat.le_of_not_lt
    intro before
    have less := Nat.mul_lt_mul_of_pos_right (twice_lt_midpoint (Nat.le_sub_one_of_lt before))
      positive
    rw [Nat.mul_assoc, midpoint, Nat.sub_add_cancel (by omega)] at less
    omega
  have cases : n = rankBelow (num / den) ∨ n - 1 = rankBelow (num / den) ∧ 0 < n := by omega
  rw [nearestRank]
  rcases cases with same | ⟨same, nonzero⟩
  · rw [← same]
    split
    · exact Nat.min_eq_left finite
    · rename_i compared
      have half : 2 * num = midpoint n * den := Nat.compare_eq_eq.mp compared
      have isEven : n % 2 = 0 := by
        have := fun odd => (even odd).2 half
        omega
      rw [isEven]
      exact Nat.min_eq_left finite
    · rename_i compared
      have more : midpoint n * den < 2 * num := Nat.compare_eq_gt.mp compared
      omega
  · rw [← same, Nat.sub_add_cancel nonzero]
    split
    · rename_i compared
      have less := Nat.compare_eq_lt.mp compared
      omega
    · rename_i compared
      have half := Nat.compare_eq_eq.mp compared
      have isEven : n % 2 = 0 := by
        have := fun odd => (even odd).1 half.symm
        omega
      have up : n - 1 + (n - 1) % 2 = n := by omega
      rw [up]
      exact Nat.min_eq_left finite
    · exact Nat.min_eq_left finite

end Number
end Scriptlet
