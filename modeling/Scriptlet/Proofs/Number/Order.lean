import Mathlib.Data.Bool.Basic
import Mathlib.Data.Int.Order.Basic
import Mathlib.Data.Nat.Basic
import Scriptlet.Evaluation.Operation
import Scriptlet.Proofs.Number.Pattern

/-! The order of doubles. A double that is a number stands at its rank, below zero if it has the
minus sign; so both zeros stand at one place. Comparing doubles compares their places, and one that
is not a number has none. -/
namespace Scriptlet.Number

open Float.Model UnpackedFloat

/-- The place of a double among all that are numbers. -/
def place (x : Float) : Int := if signBit x then -(rank x : Int) else rank x

section Unpacked

/-- An unpacked double stands at a place. The mantissa has its leading bit wherever the exponent is
not the least one, so that a greater exponent is a greater double. -/
inductive StandsAt : UnpackedFloat → Int → Prop where
  | infinity (sign : Sign) : StandsAt (.infinity sign) (sign.apply infinityRank)
  | zero (sign : Sign) : StandsAt (.zero sign) 0
  | finite (sign : Sign) {mantissa : Nat} {exponent : Int} (positive : 0 < mantissa)
      (short : mantissa < 2 * scaleSize) (least : -1074 ≤ exponent) (greatest : exponent ≤ 971)
      (leading : exponent = -1074 ∨ scaleSize ≤ mantissa) :
      StandsAt (.finite sign mantissa exponent positive)
        (sign.apply ((exponent + 1074) * scaleSize + mantissa))

/-- Exponents first, then mantissas: this is the order of the places. -/
theorem compare_magnitudes {m n : Nat} {d e : Int} (short : m < 2 * scaleSize)
    (short' : n < 2 * scaleSize) (least : -1074 ≤ d) (least' : -1074 ≤ e)
    (leading : d = -1074 ∨ scaleSize ≤ m) (leading' : e = -1074 ∨ scaleSize ≤ n) :
    (compare d e).then (compare m n) =
      compare ((d + 1074) * scaleSize + m) ((e + 1074) * scaleSize + n) := by
  simp only [scaleSize] at *
  rcases Int.lt_trichotomy d e with below | rfl | above
  · rw [compare_lt_iff_lt.mpr below, eq_comm, Ordering.lt_then, compare_lt_iff_lt]
    omega
  · rw [compare_eq_iff_eq.mpr rfl, Ordering.eq_then]
    rcases Nat.lt_trichotomy m n with less | rfl | more
    · rw [compare_lt_iff_lt.mpr less, eq_comm, compare_lt_iff_lt]
      omega
    · rw [compare_eq_iff_eq.mpr rfl, compare_eq_iff_eq.mpr rfl]
    · rw [compare_gt_iff_gt.mpr more, eq_comm, compare_gt_iff_gt]
      omega
  · rw [compare_gt_iff_gt.mpr above, eq_comm, Ordering.gt_then, compare_gt_iff_gt]
    omega

theorem compare_neg (i j : Int) : compare (-i) (-j) = (compare i j).swap := by
  rw [Int.compare_swap]
  simp only [Int.compare_eq_ite_lt, Int.neg_lt_neg_iff]

/-- Unpacked doubles are in the order of their places. -/
theorem StandsAt.compare {u v : UnpackedFloat} (first : StandsAt u i) (second : StandsAt v j) :
    u.compare v = some (compare i j) := by
  have below {i j : Int} (less : i < j) : some Ordering.lt = some (Ord.compare i j) :=
    congrArg some (compare_lt_iff_lt.mpr less).symm
  have above {i j : Int} (more : j < i) : some Ordering.gt = some (Ord.compare i j) :=
    congrArg some (compare_gt_iff_gt.mpr more).symm
  have same (i : Int) : some Ordering.eq = some (Ord.compare i i) :=
    congrArg some (compare_eq_iff_eq.mpr rfl).symm
  cases first with
  | infinity sign =>
    cases second with
    | infinity sign' => cases sign <;> cases sign' <;> rfl
    | zero => cases sign <;> rfl
    | finite sign' positive short least greatest leading =>
      simp only [infinityRank, scaleSize] at *
      cases sign <;> cases sign' <;> simp only [Sign.apply]
      · exact below (by omega)
      · exact below (by omega)
      · exact above (by omega)
      · exact above (by omega)
  | zero sign =>
    cases second with
    | infinity sign' => cases sign' <;> rfl
    | zero => exact same 0
    | finite sign' positive short least greatest leading =>
      cases sign' <;> simp only [Sign.apply, scaleSize]
      · exact above (by omega)
      · exact below (by omega)
  | finite sign positive short least greatest leading =>
    cases second with
    | infinity sign' =>
      simp only [infinityRank, scaleSize] at *
      cases sign <;> cases sign' <;> simp only [Sign.apply]
      · exact above (by omega)
      · exact below (by omega)
      · exact above (by omega)
      · exact below (by omega)
    | zero =>
      cases sign <;> simp only [Sign.apply, scaleSize]
      · exact below (by omega)
      · exact above (by omega)
    | finite sign' positive' short' least' greatest' leading' =>
      have order := compare_magnitudes short short' least least' leading leading'
      cases sign <;> cases sign' <;> simp only [Sign.apply]
      · rw [compare_neg, ← order]
        rfl
      · exact below (by simp only [scaleSize] at *; omega)
      · exact above (by simp only [scaleSize] at *; omega)
      · exact congrArg some order

end Unpacked

section Bits

variable (bits : BitVec Format.binary64.numBits)

/-- The pattern without its sign bit is exponent and mantissa in a row. -/
theorem rank_fields : bits.toNat % signWeight =
    (unpackExponent bits).toNat * scaleSize + (unpackMantissa bits).toNat := by
  rw [toNat_unpackExponent, toNat_unpackMantissa]
  simp only [signWeight, scaleSize]
  omega

theorem ofBitVec_unpackSign : Sign.ofBitVec (unpackSign bits) =
    if signWeight ≤ bits.toNat then .negative else .positive := by
  have single := toNat_unpackSign bits
  have bound : bits.toNat < 2 ^ 64 := bits.isLt
  have clear : unpackSign bits = 0#1 ↔ ¬ signWeight ≤ bits.toNat := by
    rw [← BitVec.toNat_inj, single]
    simp only [signWeight, BitVec.toNat_ofNat]
    omega
  by_cases minus : signWeight ≤ bits.toNat
  · rw [Sign.ofBitVec, if_neg (mt clear.mp (not_not.mpr minus)), if_pos minus]
  · rw [Sign.ofBitVec, if_pos (clear.mpr minus), if_neg minus]

/-- A pattern that is that of a number is unpacked at its place. -/
theorem standsAt_unpack (number : (UnpackedFloat.unpack .binary64 bits).isNaN = false) :
    StandsAt (UnpackedFloat.unpack .binary64 bits)
      ((Sign.ofBitVec (unpackSign bits)).apply (bits.toNat % signWeight : Nat)) := by
  have fields := rank_fields bits
  have bias : (Format.binary64.exponentBias : Int) + (52 : Nat) = 1075 := rfl
  have short : (unpackMantissa bits).toNat < scaleSize := (unpackMantissa bits).isLt
  unfold UnpackedFloat.unpack at number ⊢
  dsimp only at number ⊢
  rw [bias] at number ⊢
  split
  · rename_i top
    split
    · rename_i zero
      rw [top, zero] at fields
      rw [fields]
      exact .infinity _
    · rename_i nonzero
      rw [if_pos top, if_neg nonzero] at number
      contradiction
  · rename_i top
    have below : (unpackExponent bits).toNat < 2047 := by
      have bound : (unpackExponent bits).toNat < 2048 := (unpackExponent bits).isLt
      have : (unpackExponent bits).toNat ≠ 2047 := fun same => top (BitVec.eq_of_toNat_eq same)
      omega
    split
    · rename_i least
      have exponent : (unpackExponent bits).toNat = 0 := by rw [least]; rfl
      split
      · rename_i zero
        rw [exponent, zero] at fields
        rw [fields]
        cases Sign.ofBitVec (unpackSign bits) <;> exact .zero _
      · have worth : ((bits.toNat % signWeight : Nat) : Int) =
            (((unpackExponent bits).toNat : Int) - 1075 + 1 + 1074) * scaleSize +
              (unpackMantissa bits).toNat := by
          rw [fields, exponent]
          simp
        rw [worth, exponent]
        exact .finite _ _ (by omega) (by decide) (by decide) (.inl rfl)
    · rename_i least
      have nonzero : (unpackExponent bits).toNat ≠ 0 := fun same => least (BitVec.eq_of_toNat_eq same)
      have whole : (1#1 ++ unpackMantissa bits).toNat =
          scaleSize + (unpackMantissa bits).toNat := by
        rw [BitVec.toNat_append, ← Nat.shiftLeft_add_eq_or_of_lt (unpackMantissa bits).isLt]
        rfl
      have worth : ((bits.toNat % signWeight : Nat) : Int) =
          (((unpackExponent bits).toNat : Int) - 1075 + 1074) * scaleSize +
            (1#1 ++ unpackMantissa bits).toNat := by
        rw [fields, whole]
        simp only [scaleSize]
        omega
      rw [worth]
      exact .finite _ _ (by omega) (by omega) (by omega) (.inr (by omega))

end Bits

/-- A double that is a number is unpacked at its place. -/
theorem standsAt_place {x : Float} (number : x.isNaN = false) :
    StandsAt x.toModel.unpack (place x) := by
  have stands := standsAt_unpack x.toBits.toBitVec number
  rw [ofBitVec_unpackSign] at stands
  by_cases minus : signWeight ≤ x.toBits.toBitVec.toNat
  · rw [if_pos minus] at stands
    have signed : signBit x = true := decide_eq_true minus
    rwa [place, if_pos signed]
  · rw [if_neg minus] at stands
    have clear : ¬ signBit x = true := mt of_decide_eq_true minus
    rwa [place, if_neg clear]

theorem unpack_of_isNaN {x : Float} (undefined : x.isNaN = true) :
    x.toModel.unpack = .notANumber := by
  change x.toModel.unpack.isNaN = true at undefined
  cases unpacked : x.toModel.unpack with
  | notANumber => rfl
  | _ => rw [unpacked] at undefined; contradiction

/-- Doubles are compared by their places, unless one of them is not a number. -/
theorem compare_unpack (x y : Float) : x.toModel.unpack.compare y.toModel.unpack =
    if x.isNaN ∨ y.isNaN then none else some (compare (place x) (place y)) := by
  by_cases first : x.isNaN = true
  · rw [if_pos (.inl first), unpack_of_isNaN first]
    rfl
  by_cases second : y.isNaN = true
  · rw [if_pos (.inr second), unpack_of_isNaN second]
    cases x.toModel.unpack <;> rfl
  rw [if_neg (not_or.mpr ⟨first, second⟩)]
  exact (standsAt_place (Bool.eq_false_of_not_eq_true first)).compare
    (standsAt_place (Bool.eq_false_of_not_eq_true second))

theorem lt_iff {x y : Float} :
    x < y ↔ x.toModel.unpack.compare y.toModel.unpack = some .lt := by
  change decide (x.toModel < y.toModel) = true ↔ _
  rw [decide_eq_true_iff]
  exact beq_iff_eq

theorem beq_iff {x y : Float} :
    (x == y) = true ↔ x.toModel.unpack.compare y.toModel.unpack = some .eq := by
  change (x.toModel.unpack.compare y.toModel.unpack == some .eq) = true ↔ _
  exact beq_iff_eq

theorem order?_eq (x y : Float) :
    order? x y = if x.isNaN ∨ y.isNaN then none else some (compare (place x) (place y)) := by
  have less := lt_iff (x := x) (y := y)
  have same := beq_iff (x := x) (y := y)
  have greater := lt_iff (x := y) (y := x)
  rw [compare_unpack] at less same greater
  unfold order?
  by_cases undefined : x.isNaN ∨ y.isNaN
  · rw [if_pos undefined] at less same ⊢
    rw [if_pos undefined.symm] at greater
    rw [if_neg (less.not.mpr nofun), if_neg (same.not.mpr nofun), if_neg (greater.not.mpr nofun)]
  · rw [if_neg undefined, Option.some_inj] at less same
    rw [if_neg (mt Or.symm undefined), Option.some_inj] at greater
    rw [Int.compare_eq_lt] at less greater
    rw [Int.compare_eq_eq] at same
    rw [if_neg undefined, Int.compare_eq_ite_lt]
    simp only [less, same, greater]
    rcases Int.lt_trichotomy (place x) (place y) with below | level | above
    · rw [if_pos below, if_pos below]
    · rw [level, if_neg (Int.lt_irrefl _), if_pos rfl, if_neg (Int.lt_irrefl _),
        if_neg (Int.lt_irrefl _)]
    · rw [if_neg (Int.lt_asymm above), if_neg (Int.ne_of_gt above), if_pos above,
        if_neg (Int.lt_asymm above), if_pos above]

/-- The programs' equality is the one of the order. -/
theorem beq_eq_order? (x y : Float) : (x == y) = (order? x y == some .eq) := by
  rw [Bool.eq_iff_iff, beq_iff, beq_iff_eq, order?_eq, compare_unpack]

end Scriptlet.Number
