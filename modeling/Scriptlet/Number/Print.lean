import Scriptlet.Number.Decimal

/-! The two written forms of a number. Both use the shortest digits that read back. The plain form
never has an exponent and writes a whole number without a point; the JSON form always shows a point
or an exponent. -/
namespace Scriptlet.Number

/-- A decimal written out by position: the digits before the point and those after it. -/
def positional (d : Decimal) : String × String :=
  let digits := toString d.digits
  if 0 ≤ d.exponent then (digits.pushn '0' d.exponent.toNat, "")
  else
    let places := (-d.exponent).toNat
    let padded := ("".pushn '0' (places + 1 - digits.length)) ++ digits
    let chars := padded.toList
    let cut := chars.length - places
    (String.ofList (chars.take cut), String.ofList (chars.drop cut))

/-- The plain form of the finite double of a given rank. -/
def plainMagnitude (n : Nat) : String :=
  if n = 0 then "0"
  else match positional (.shortest .up n) with
    | (whole, "") => whole
    | (whole, fraction) => whole ++ "." ++ fraction

/-- The plain form: `7`, `0.1`, `-0`, `inf`, `-inf`, `NaN`. -/
def plain (x : Float) : String :=
  if x.isNaN then "NaN"
  else
    let magnitude := if x.isInf then "inf" else plainMagnitude (rank x)
    if signBit x then "-" ++ magnitude else magnitude

/-- A decimal with one digit before the point and an exponent that always has a sign: `1.5e-7`,
`1e+16`. -/
def scientific (d : Decimal) : String :=
  let digits := (toString d.digits).toList
  let exponent := d.exponent + (digits.length - 1 : Nat)
  let fraction := if digits.length = 1 then "" else "." ++ String.ofList (digits.drop 1)
  let sign := if exponent < 0 then "-" else "+"
  String.ofList (digits.take 1) ++ fraction ++ "e" ++ sign ++ toString exponent.natAbs

/-- The JSON form of the finite double of a given rank: by position for leading digits from
`10 ^ -5` to `10 ^ 15`, with an exponent beyond. -/
def jsonMagnitude (n : Nat) : String :=
  if n = 0 then "0.0"
  else
    let d := Decimal.shortest .even n
    let leading := d.exponent + ((toString d.digits).length - 1 : Nat)
    if -5 ≤ leading ∧ leading ≤ 15 then
      match positional d with
      | (whole, "") => whole ++ ".0"
      | (whole, fraction) => whole ++ "." ++ fraction
    else scientific d

def json (x : Float) : String :=
  if signBit x then "-" ++ jsonMagnitude (rank x) else jsonMagnitude (rank x)

end Scriptlet.Number
