/-! Doubles by rank. Without its sign bit the pattern of a double counts the doubles from zero
upwards, so the pattern is a rank. The double of rank `n` is worth `units n` times `2 ^ -1074`,
the least positive double; infinity ranks next after the greatest finite double and is given the
worth `2 ^ 1024` that the binary scale would have next. Rounding and remainders are then exact
questions about natural numbers. -/
namespace Scriptlet.Number

/-- How many ranks share a binary scale, `2 ^ 52`. -/
def scaleSize : Nat := 0x10000000000000

/-- The pattern that is the sign bit alone, `2 ^ 63`. -/
def signWeight : Nat := 0x8000000000000000

/-- The rank of infinity; exactly the smaller ranks are finite. -/
def infinityRank : Nat := 2047 * scaleSize

/-- The worth of a rank, in units of `2 ^ -1074`. -/
def units (n : Nat) : Nat :=
  if n < scaleSize then n else (scaleSize + n % scaleSize) <<< (n / scaleSize - 1)

/-- The greatest rank worth at most `amount` units: the leading 53 bits, and how many follow. -/
def rankBelow (amount : Nat) : Nat :=
  let dropped := amount.log2 - 52
  dropped * scaleSize + amount >>> dropped

/-- The rank nearest to the fraction `num / den` of a unit count; half way goes to the even rank,
and everything from half way past the greatest finite double on goes to infinity. -/
def nearestRank (num den : Nat) : Nat :=
  let n := rankBelow (num / den)
  let rounded := match compare (2 * num) ((units n + units (n + 1)) * den) with
    | .lt => n
    | .eq => n + n % 2
    | .gt => n + 1
  min rounded infinityRank

def signBit (x : Float) : Bool := signWeight ≤ x.toBits.toNat

/-- The pattern without the sign bit. -/
def rank (x : Float) : Nat := x.toBits.toNat % signWeight

/-- The double of a given sign and rank. -/
def ofRank (negative : Bool) (n : Nat) : Float :=
  .ofBits (if negative then signWeight + n else n).toUInt64

/-- The remainder of a division whose quotient is cut towards zero: it has the sign of the
dividend and is always a double, so nothing is rounded. The divisor is not zero. -/
def remainder (x y : Float) : Float :=
  if x.isNaN || y.isNaN || x.isInf then 0.0 / 0.0
  else if y.isInf then x
  else ofRank (signBit x) (rankBelow (units (rank x) % units (rank y)))

end Scriptlet.Number
