import Mathlib
import Scriptlet.Number.Magnitude

/-! Doubles and their bits. Packing what has been unpacked gives back every valid pattern, so a
double without its sign bit is determined by its rank, and it is finite when the rank is below that
of infinity. The lemmas on packing are those of Batteries for the model of floating-point numbers,
which only the whole of Mathlib imports. -/

namespace Scriptlet.Number

open Float.Model UnpackedFloat

section Pattern

variable (bits : BitVec Format.binary64.numBits)

theorem toNat_unpackExponent : (unpackExponent bits).toNat = bits.toNat / scaleSize % 2048 := by
  simp [unpackExponent, BitVec.extractLsb_toNat, Nat.shiftRight_eq_div_pow, scaleSize]

theorem toNat_unpackMantissa : (unpackMantissa bits).toNat = bits.toNat % scaleSize := by
  simp [unpackMantissa, BitVec.extractLsb_toNat, scaleSize]

theorem toNat_unpackSign : (unpackSign bits).toNat = bits.toNat / signWeight := by
  have bound : bits.toNat < 2 ^ 64 := bits.isLt
  simp [unpackSign, BitVec.extractLsb_toNat, Nat.shiftRight_eq_div_pow, signWeight]
  omega

end Pattern

theorem toBits_ofBits {bits : UInt64} (valid : Format.binary64.Valid bits.toBitVec) :
    (Float.ofBits bits).toBits = bits := by
  have same := pack_unpack_of_valid valid
  simp only [Float.ofBits, Float.toBits, Float.Model.ofBits, Float.Model.pack, same]

theorem unpack_isFinite (bits : BitVec Format.binary64.numBits) :
    (UnpackedFloat.unpack .binary64 bits).isFinite = true ↔ unpackExponent bits ≠ -1 := by
  unfold UnpackedFloat.unpack
  dsimp only
  split
  · rename_i top
    split <;> exact ⟨fun finite => by contradiction, fun differs => absurd top differs⟩
  · rename_i top
    split
    · split <;> exact iff_of_true rfl top
    · exact iff_of_true rfl top

theorem unpackExponent_eq_top (bits : BitVec Format.binary64.numBits) :
    unpackExponent bits = -1 ↔ infinityRank ≤ bits.toNat % signWeight := by
  rw [← BitVec.toNat_inj, toNat_unpackExponent]
  change _ = 2047 ↔ _
  simp only [infinityRank, signWeight, scaleSize]
  omega

theorem isFinite_iff (x : Float) : x.isFinite = true ↔ rank x < infinityRank := by
  refine (unpack_isFinite _).trans ?_
  rw [Ne, unpackExponent_eq_top, Nat.not_le]
  rfl

theorem isNaN_eq_false {x : Float} (finite : x.isFinite = true) : x.isNaN = false := by
  unfold Float.isFinite Float.Model.isFinite at finite
  unfold Float.isNaN Float.Model.isNaN
  cases value : x.toModel.unpack with
  | notANumber => rw [value] at finite; contradiction
  | _ => rfl

theorem isInf_eq_false {x : Float} (finite : x.isFinite = true) : x.isInf = false := by
  unfold Float.isFinite Float.Model.isFinite at finite
  unfold Float.isInf Float.Model.isInf
  cases value : x.toModel.unpack with
  | infinity => rw [value] at finite; contradiction
  | _ => rfl

theorem toBits_ofRank (negative : Bool) (within : n ≤ infinityRank) :
    (ofRank negative n).toBits.toNat = if negative then signWeight + n else n := by
  generalize packedDef : (if negative then signWeight + n else n) = packed
  have small : packed < 2 ^ 64 ∧ packed % signWeight = n := by
    subst packedDef
    simp only [infinityRank, signWeight, scaleSize] at within ⊢
    split <;> omega
  have same : packed.toUInt64.toNat = packed := Nat.mod_eq_of_lt small.1
  have valid : Format.binary64.Valid packed.toUInt64.toBitVec := by
    refine ⟨fun top nonzero => absurd ?_ nonzero⟩
    have above := (unpackExponent_eq_top _).mp top
    rw [← BitVec.toNat_inj, toNat_unpackMantissa]
    change infinityRank ≤ packed.toUInt64.toNat % signWeight at above
    change packed.toUInt64.toNat % scaleSize = 0
    rw [same] at above ⊢
    have pattern := small.2
    simp only [infinityRank, signWeight, scaleSize] at *
    omega
  unfold ofRank
  rw [packedDef, toBits_ofBits valid, same]

theorem rank_ofRank (negative : Bool) (within : n ≤ infinityRank) :
    rank (ofRank negative n) = n := by
  rw [rank, toBits_ofRank negative within]
  simp only [infinityRank, signWeight, scaleSize] at within ⊢
  split <;> omega

theorem signBit_ofRank (within : n ≤ infinityRank) : signBit (ofRank false n) = false := by
  rw [signBit, toBits_ofRank false within, decide_eq_false_iff_not, Nat.not_le]
  exact Nat.lt_of_le_of_lt within (by decide)

theorem ofRank_rank {x : Float} (clear : signBit x = false) : ofRank false (rank x) = x := by
  rw [signBit, decide_eq_false_iff_not, Nat.not_le] at clear
  rw [ofRank, if_neg Bool.false_ne_true, rank, Nat.mod_eq_of_lt clear]
  exact (congrArg Float.ofBits UInt64.ofNat_toNat).trans x.ofBits_toBits

end Scriptlet.Number
