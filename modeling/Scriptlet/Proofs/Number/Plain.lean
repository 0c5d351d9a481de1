import Scriptlet.Proofs.Number.Pattern
import Scriptlet.Proofs.Number.Shortest

/-! The plain form reads back. It is digits, and after them a point and more digits where the
number is not whole, and the double nearest to that decimal is the number. -/
namespace Scriptlet
namespace Number

open Decimal

/-- The text of a numeral: digits, and a point before those of the fraction. -/
def numeral (whole fraction : List Char) : List Char :=
  whole ++ if fraction = [] then [] else '.' :: fraction

theorem toList_pushn (s : String) (c : Char) (n : Nat) :
    (s.pushn c n).toList = s.toList ++ List.replicate n c := by
  rw [String.pushn_eq_repeat_push]
  induction n with
  | zero => simp [Nat.repeat]
  | succ n ih => simp [Nat.repeat, ih, List.replicate_succ']

/-- A way to write a decimal by position that reads as the rank. -/
structure Written (n : Nat) (whole fraction : List Char) : Prop where
  nonempty : whole ≠ []
  wholeDigits : ∀ c ∈ whole, c.isDigit = true
  fractionDigits : ∀ c ∈ fraction, c.isDigit = true
  reads : (ofPoint whole fraction).Reads n

theorem natOfDigits_append (front back : List Char) :
    natOfDigits (front ++ back) = Nat.ofDigitChars 10 back (natOfDigits front) :=
  Nat.ofDigitChars_append 0

theorem natOfDigits_toDigits (n : Nat) : natOfDigits (Nat.toDigits 10 n) = n :=
  Nat.ofDigitChars_ten_toDigits

theorem isDigit_of_padded {c : Char} (front back : Nat)
    (among : c ∈ List.replicate front '0' ++ Nat.toDigits 10 n ++ List.replicate back '0') :
    c.isDigit = true := by
  simp only [List.mem_append, List.mem_replicate] at among
  rcases among with (⟨_, rfl⟩ | digit) | ⟨_, rfl⟩
  · rfl
  · exact Nat.isDigit_of_mem_toDigits (by decide) (by decide) digit
  · rfl

theorem reads_whole (k : Nat) : Reads n ⟨k, -([] : List Char).length⟩ ↔
    Rounds n (k <<< 1074) 1 := by
  have unscaled : powerOfTen (-([] : List Char).length) = 1 := rfl
  have free : powerOfTen (- -([] : List Char).length) = 1 := rfl
  rw [Reads, unscaled, free, Nat.mul_one]

theorem positional_of_nonneg (reads : d.Reads n) (up : 0 ≤ d.exponent) : ∃ whole,
    positional d = (String.ofList whole, "") ∧ Written n whole [] := by
  refine ⟨Nat.toDigits 10 d.digits ++ List.replicate d.exponent.toNat '0', ?_, ?_, ?_, ?_, ?_⟩
  · rw [positional, if_pos up, ← String.ofList_toList (s := String.pushn _ _ _), toList_pushn]
    simp
  · simp [Nat.toDigits_ne_nil]
  · exact fun c digit => isDigit_of_padded 0 d.exponent.toNat digit
  · exact fun c digit => by contradiction
  · have value : natOfDigits (Nat.toDigits 10 d.digits ++ List.replicate d.exponent.toNat '0') =
        d.digits * powerOfTen d.exponent := by
      rw [natOfDigits_append, natOfDigits_toDigits, Nat.ofDigitChars_replicate_zero, Nat.mul_comm]
      rfl
    have whole : powerOfTen (-d.exponent) = 1 := powerOfTen_of_nonpos (by omega)
    rw [Reads, whole] at reads
    rw [ofPoint, List.append_nil, value]
    exact (reads_whole _).mpr reads

theorem positional_of_neg (reads : d.Reads n) (down : d.exponent < 0) : ∃ whole fraction,
    positional d = (String.ofList whole, String.ofList fraction) ∧ fraction ≠ [] ∧
      Written n whole fraction := by
  obtain ⟨places, positive, exponent⟩ : ∃ places : Nat, 0 < places ∧ d.exponent = -places :=
    ⟨(-d.exponent).toNat, by omega, by omega⟩
  generalize paddedDef : List.replicate (places + 1 - (Nat.toDigits 10 d.digits).length) '0' ++
    Nat.toDigits 10 d.digits = padded
  have long : places < padded.length := by
    rw [← paddedDef, List.length_append, List.length_replicate]
    omega
  have digits : ∀ c ∈ padded, c.isDigit = true := by
    intro c among
    rw [← paddedDef] at among
    exact isDigit_of_padded _ 0 (List.mem_append_left _ among)
  refine ⟨padded.take (padded.length - places), padded.drop (padded.length - places), ?_, ?_, ?_,
    fun c among => digits c (List.mem_of_mem_take among),
    fun c among => digits c (List.mem_of_mem_drop among), ?_⟩
  · have length : d.digits.repr.length = (Nat.toDigits 10 d.digits).length := by
      rw [← String.length_toList, Nat.toList_repr]
    rw [positional, if_neg (by omega)]
    simp [exponent, toList_pushn, ← paddedDef, length]
  · rw [Ne, List.drop_eq_nil_iff]
    omega
  · rw [Ne, List.take_eq_nil_iff]
    rintro (empty | empty)
    · omega
    · rw [empty] at long
      contradiction
  · have value : natOfDigits padded = d.digits := by
      rw [← paddedDef, natOfDigits_append, natOfDigits, ← Nat.ofDigitChars_eq_foldl,
        Nat.ofDigitChars_replicate_zero]
      exact natOfDigits_toDigits _
    rw [ofPoint, List.take_append_drop, value, List.length_drop,
      Nat.sub_sub_self (Nat.le_of_lt long), ← exponent]
    exact reads

theorem plainMagnitude_written (n : Nat) : ∃ whole fraction,
    (plainMagnitude n).toList = numeral whole fraction ∧ Written n whole fraction := by
  rw [plainMagnitude]
  split
  · rename_i zero
    subst zero
    refine ⟨['0'], [], rfl, by simp, by simp, by simp, (reads_whole _).mpr ?_⟩
    exact ⟨Nat.zero_le _, Nat.zero_le _, fun odd => by contradiction⟩
  · rename_i nonzero
    have reads := shortest_reads (Nat.pos_of_ne_zero nonzero) .up
    by_cases up : 0 ≤ (shortest .up n).exponent
    · obtain ⟨whole, written, fits⟩ := positional_of_nonneg reads up
      rw [written]
      exact ⟨whole, [], by simp [numeral], fits⟩
    · obtain ⟨whole, fraction, written, nonempty, fits⟩ := positional_of_neg reads (by omega)
      rw [written]
      refine ⟨whole, fraction, ?_, fits⟩
      split
      · rename_i same
        cases fraction with
        | nil => contradiction
        | cons c more => simp at same
      · rename_i same
        rw [Prod.mk.injEq] at same
        rw [← same.1, ← same.2]
        simp [numeral, nonempty]

/-- The plain form of a number that is finite and has no sign is a numeral, and reading the numeral
gives the number. -/
theorem plain_reads {x : Float} (finite : x.isFinite = true) (clear : signBit x = false) :
    ∃ whole fraction, (plain x).toList = numeral whole fraction ∧ whole ≠ [] ∧
      (∀ c ∈ whole, c.isDigit = true) ∧ (∀ c ∈ fraction, c.isDigit = true) ∧
      (ofPoint whole fraction).toFloat = x := by
  obtain ⟨whole, fraction, text, written⟩ := plainMagnitude_written (rank x)
  refine ⟨whole, fraction, ?_, written.nonempty, written.wholeDigits, written.fractionDigits, ?_⟩
  · rw [plain, isNaN_eq_false finite, isInf_eq_false finite, clear]
    exact text
  · rw [toFloat, Decimal.nearestRank_eq written.reads ((isFinite_iff x).mp finite)]
    exact ofRank_rank clear

theorem nearestRank_le (d : Decimal) : d.nearestRank ≤ infinityRank := by
  rw [Decimal.nearestRank]
  split
  · exact Nat.zero_le _
  split
  · exact Nat.le_refl _
  split
  · exact Nat.zero_le _
  · exact Nat.min_le_right _ _

/-- What is read from digits has no sign. -/
theorem signBit_toFloat (d : Decimal) : signBit d.toFloat = false :=
  signBit_ofRank (nearestRank_le d)

end Number
end Scriptlet
