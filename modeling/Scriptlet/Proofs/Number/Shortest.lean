import Scriptlet.Proofs.Number.Rounding
import Scriptlet.Number.Print

/-! The shortest decimals read back. Reading rounds a decimal to the rank in whose interval it
lies, also where it takes a short cut, and the decimals that are written for a rank are chosen from
its interval. -/
namespace Scriptlet
namespace Decimal

/-- Where a decimal lies in the interval of a rank. -/
def Reads (n : Nat) (d : Decimal) : Prop :=
  Number.Rounds n ((d.digits * powerOfTen d.exponent) <<< 1074) (powerOfTen (-d.exponent))

theorem powerOfTen_pos (e : Int) : 0 < powerOfTen e := Nat.pow_pos (by decide)

theorem powerOfTen_of_nonpos {e : Int} (nonpositive : e ≤ 0) : powerOfTen e = 1 := by
  rw [powerOfTen, Int.toNat_of_nonpos nonpositive]

theorem two_pow_le_powerOfTen {e : Int} {k : Nat} (within : k ≤ 3 * e) :
    2 ^ k ≤ powerOfTen e := by
  calc 2 ^ k ≤ 2 ^ (3 * e.toNat) := Nat.pow_le_pow_right (by decide) (by omega)
    _ = (2 ^ 3) ^ e.toNat := Nat.pow_mul ..
    _ ≤ 10 ^ e.toNat := Nat.pow_le_pow_left (by decide) _

theorem ten_pow_le_powerOfTen {e : Int} {k : Nat} (within : k ≤ e) : 10 ^ k ≤ powerOfTen e :=
  Nat.pow_le_pow_right (by decide) (by omega)

theorem two_pow_le_ten_pow {a c : Nat} (step : 2 ^ a ≤ 10 ^ c) (b : Nat) :
    2 ^ (a * b) ≤ 10 ^ (c * b) := by
  rw [Nat.pow_mul, Nat.pow_mul]
  exact Nat.pow_le_pow_left step b

/-- A power of ten greater than every finite double. -/
theorem two_pow_le_powerOfTen_of_huge {e : Int} (huge : 309 < e) :
    2 ^ (205 * 5) ≤ powerOfTen e :=
  Nat.le_trans (two_pow_le_ten_pow (by decide) 5) (ten_pow_le_powerOfTen (k := 62 * 5) (by omega))

namespace Reads

variable {n : Nat} {d : Decimal}

/-- Only zero can be read from less than half the least double. -/
theorem eq_zero (reads : d.Reads n)
    (less : 2 * ((d.digits * powerOfTen d.exponent) <<< 1074) < powerOfTen (-d.exponent)) :
    n = 0 := by
  have low := Nat.lt_of_le_of_lt reads.lower less
  have worth : Number.units (n - 1) + Number.units n < 1 :=
    Nat.lt_of_mul_lt_mul_right (Nat.lt_of_lt_of_eq low (Nat.one_mul _).symm)
  apply Nat.eq_zero_of_not_pos
  intro positive
  have more := Number.units_strictMono positive
  omega

theorem eq_zero_of_tiny (reads : d.Reads n)
    (tiny : d.digits.log2 + 1076 ≤ 3 * (-d.exponent)) : n = 0 := by
  apply reads.eq_zero
  have whole : powerOfTen d.exponent = 1 := powerOfTen_of_nonpos (by omega)
  have powers (a b : Nat) : 2 * (2 ^ a * 2 ^ b) = 2 ^ (a + b + 1) := by
    rw [← Nat.pow_add, ← Nat.pow_succ']
  rw [whole, Nat.mul_one, Nat.shiftLeft_eq]
  calc 2 * (d.digits * 2 ^ 1074) < 2 * (2 ^ (d.digits.log2 + 1) * 2 ^ 1074) :=
        Nat.mul_lt_mul_of_pos_left
          (Nat.mul_lt_mul_of_pos_right Nat.lt_log2_self (Nat.two_pow_pos _)) (by decide)
    _ = 2 ^ (d.digits.log2 + 1 + 1074 + 1) := powers _ _
    _ ≤ powerOfTen (-d.exponent) := two_pow_le_powerOfTen (by omega)

/-- A decimal that starts beyond the greatest double reads as no finite one. -/
theorem not_finite_of_huge (reads : d.Reads n) (nonzero : d.digits ≠ 0) (huge : 309 < d.exponent) :
    Number.infinityRank ≤ n := by
  apply Nat.le_of_not_lt
  intro finite
  have worth := Number.midpoint_lt_twice finite
  have upper := reads.upper
  have whole : powerOfTen (-d.exponent) = 1 := powerOfTen_of_nonpos (by omega)
  rw [whole, Nat.mul_one, Nat.shiftLeft_eq] at upper
  rw [Number.units_infinityRank, Number.scaleSize] at worth
  have power : 2 ^ (205 * 5) ≤ d.digits * powerOfTen d.exponent :=
    Nat.le_trans (two_pow_le_powerOfTen_of_huge huge)
      (Nat.le_mul_of_pos_left _ (Nat.pos_of_ne_zero nonzero))
  have scaled := Nat.mul_le_mul_right (2 ^ 1074) power
  omega

end Reads

/-- A decimal in the interval of a finite double is read as that double. -/
theorem nearestRank_eq (reads : Reads n d) (finite : n < Number.infinityRank) :
    d.nearestRank = n := by
  rw [nearestRank]
  split
  · rename_i zero
    refine (reads.eq_zero ?_).symm
    rw [zero, Nat.zero_mul, Nat.zero_shiftLeft]
    exact powerOfTen_pos _
  split
  · rename_i nonzero huge
    exact absurd finite (Nat.not_lt.mpr (reads.not_finite_of_huge nonzero huge))
  split
  · rename_i tiny
    exact (reads.eq_zero_of_tiny tiny).symm
  · exact Number.nearestRank_eq (powerOfTen_pos _) reads (Nat.le_of_lt finite)

/-- Whether an amount of half units over a scale lies in the interval of a rank. -/
def inside (n scale amount : Nat) : Bool :=
  let low := (Number.units (n - 1) + Number.units n) * scale
  let high := (Number.units n + Number.units (n + 1)) * scale
  if n % 2 = 0 then low ≤ amount && amount ≤ high else low < amount && amount < high

theorem rounds_of_inside {n num den : Nat} (within : inside n den (2 * num) = true) :
    Number.Rounds n num den := by
  rw [inside] at within
  split at within
  · rename_i isEven
    rw [Bool.and_eq_true, decide_eq_true_iff, decide_eq_true_iff] at within
    exact ⟨within.1, within.2, fun odd => by omega⟩
  · rw [Bool.and_eq_true, decide_eq_true_iff, decide_eq_true_iff] at within
    exact ⟨Nat.le_of_lt within.1, Nat.le_of_lt within.2,
      fun _ => ⟨Nat.ne_of_lt within.1, Nat.ne_of_lt within.2⟩⟩

/-- A chosen point is one of the two that may be chosen. -/
theorem choose_reads (reads : Nat → Bool)
    (chosen : choose tie k (reads k) (reads (k + 1)) nearer = some p) : reads p = true := by
  cases below : reads k <;> cases above : reads (k + 1) <;> rw [below, above] at chosen
  · contradiction
  · cases chosen
    exact above
  · cases chosen
    exact below
  · cases nearer with
    | lt => cases chosen; exact below
    | gt => cases chosen; exact above
    | eq =>
      cases tie with
      | up => cases chosen; exact above
      | even =>
        cases chosen
        rcases Nat.mod_two_eq_zero_or_one k with same | same <;> rw [same]
        · exact below
        · exact above

theorem onGrid_reads (found : onGrid tie n e = some p) : Reads n ⟨p, e⟩ := by
  have within := choose_reads
    (fun point => inside n (powerOfTen (-e)) (point * (powerOfTen e <<< 1075))) found
  have doubled (a b k : Nat) : a * (b <<< (k + 1)) = 2 * ((a * b) <<< k) := by
    rw [Nat.shiftLeft_eq, Nat.shiftLeft_eq, Nat.pow_succ]
    ac_rfl
  rw [doubled] at within
  exact rounds_of_inside within

/-- The worth of a rank that is not zero lies in its interval, over every power of ten. -/
theorem rounds_worth (positive : 0 < n) (k : Nat) :
    Number.Rounds n ((Number.units n * Nat.pow 5 k) <<< k) (powerOfTen k) := by
  change Number.Rounds n ((Number.units n * 5 ^ k) <<< k) (10 ^ k)
  have below := Number.units_strictMono (Nat.sub_lt positive Nat.one_pos)
  have above := Number.units_strictMono (Nat.lt_succ_self n)
  have amount : 2 * ((Number.units n * 5 ^ k) <<< k) = 2 * Number.units n * 10 ^ k := by
    rw [Nat.shiftLeft_eq, Nat.mul_assoc (Number.units n), ← Nat.mul_pow, Nat.mul_assoc]
  have scale : 0 < 10 ^ k := Nat.pow_pos (by decide)
  have lower : (Number.units (n - 1) + Number.units n) * 10 ^ k < 2 * Number.units n * 10 ^ k :=
    Nat.mul_lt_mul_of_pos_right (by omega) scale
  have upper : 2 * Number.units n * 10 ^ k < Number.midpoint n * 10 ^ k :=
    Nat.mul_lt_mul_of_pos_right (Number.twice_lt_midpoint (Nat.le_refl n)) scale
  rw [← amount] at lower upper
  exact ⟨Nat.le_of_lt lower, Nat.le_of_lt upper,
    fun _ => ⟨Nat.ne_of_lt lower, Nat.ne_of_lt upper⟩⟩

theorem exact_reads (positive : 0 < n) : Reads n (exact n) := by
  have whole : powerOfTen (-1074) = 1 := powerOfTen_of_nonpos (by decide)
  have twice : (- -1074 : Int) = (1074 : Nat) := rfl
  rw [Reads, exact]
  dsimp only
  rw [whole, Nat.mul_one, twice]
  -- the powers are too great to be computed, and it does not matter which they are
  generalize 1074 = k
  exact rounds_worth positive k

theorem shortest_reads (positive : 0 < n) (tie : Tie) : Reads n (shortest tie n) := by
  rw [shortest]
  generalize search : List.findSome? _ (List.range 20) = found
  cases found with
  | none => exact exact_reads positive
  | some d =>
    obtain ⟨finer, _, found⟩ := List.exists_of_findSome?_eq_some search
    obtain ⟨point, onGrid, rfl⟩ := Option.map_eq_some_iff.mp found
    exact onGrid_reads onGrid

end Decimal
end Scriptlet
