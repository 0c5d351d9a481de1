import Scriptlet.Number.Magnitude

/-! Decimal numerals and doubles. A decimal is read as the double nearest to it. A double is
written with the fewest digits that read back as itself: the decimals that do form an interval
around it, so grids of powers of ten are tried from coarse to fine, on each of them the two points
next to the double. -/
namespace Scriptlet

/-- The decimal `digits * 10 ^ exponent`. -/
structure Decimal where
  digits : Nat
  exponent : Int
  deriving DecidableEq, Repr

namespace Decimal

/-- The power of ten of an exponent, and one for a negative exponent. -/
def powerOfTen (exponent : Int) : Nat := Nat.pow 10 exponent.toNat

/-- The rank of the double nearest to a decimal. The middle cases lie beyond every finite double
and below half the least one, and keep the powers of ten small. -/
def nearestRank (d : Decimal) : Nat :=
  if d.digits = 0 then 0
  else if 309 < d.exponent then Number.infinityRank
  else if d.digits.log2 + 1076 ≤ 3 * (-d.exponent) then 0
  else Number.nearestRank ((d.digits * powerOfTen d.exponent) <<< 1074) (powerOfTen (-d.exponent))

def toFloat (d : Decimal) : Float := Number.ofRank false d.nearestRank

def natOfDigits (digits : List Char) : Nat :=
  digits.foldl (fun n c => 10 * n + (c.toNat - '0'.toNat)) 0

/-- The decimal written with these digits before and after the point. -/
def ofPoint (whole fraction : List Char) : Decimal :=
  ⟨natOfDigits (whole ++ fraction), -fraction.length⟩

/-- Which way the last digit goes when two shortest decimals are equally near. -/
inductive Tie where
  | up
  | even
  deriving DecidableEq, Repr

/-- Chooses between the points `k` and `k + 1` of a grid, given which of them read back and how
the distance to `k` compares with the distance to `k + 1`. -/
def choose (tie : Tie) (k : Nat) (below above : Bool) (nearer : Ordering) : Option Nat :=
  match below, above with
  | false, false => none
  | true, false => some k
  | false, true => some (k + 1)
  | true, true => match nearer, tie with
    | .lt, _ => some k
    | .gt, _ => some (k + 1)
    | .eq, .up => some (k + 1)
    | .eq, .even => some (k + k % 2)

/-- The point of the grid `10 ^ e` that reads back as the double of rank `n` and is nearest to it.
Worths are counted in half units, and the ends of the interval read back for even ranks. -/
def onGrid (tie : Tie) (n : Nat) (e : Int) : Option Nat :=
  let scale := powerOfTen (-e)
  let cell := powerOfTen e <<< 1075
  let low := (Number.units (n - 1) + Number.units n) * scale
  let value := 2 * Number.units n * scale
  let high := (Number.units n + Number.units (n + 1)) * scale
  let reads (amount : Nat) : Bool :=
    if n % 2 = 0 then low ≤ amount && amount ≤ high else low < amount && amount < high
  let k := value / cell
  choose tie k (reads (k * cell)) (reads ((k + 1) * cell))
    (compare (value - k * cell) ((k + 1) * cell - value))

/-- A power of ten that is greater than the double of rank `n`. -/
def coarsest (n : Nat) : Int :=
  ((Number.units n).log2 - 1073 : Int) * 30103 / 100000 + 1

/-- Every finite double is a decimal outright. -/
def exact (n : Nat) : Decimal := ⟨Number.units n * Nat.pow 5 1074, -1074⟩

/-- The shortest decimal that reads back as the positive double of rank `n`, and of those the
nearest. -/
def shortest (tie : Tie) (n : Nat) : Decimal :=
  let found := (List.range 20).findSome? fun (finer : Nat) =>
    let e := coarsest n - finer
    (onGrid tie n e).map (⟨·, e⟩)
  found.getD (exact n)

end Decimal
end Scriptlet
