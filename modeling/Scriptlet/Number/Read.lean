import Scriptlet.Number.Decimal

/-! Reading a number that stands alone: an optional sign, then digits with an optional point and an
optional exponent, or one of the words for infinity and for no number at all, in any case. A
numeral beyond the finite doubles reads as infinity. -/
namespace Scriptlet.Number

/-- Splits an optional sign from what follows; the flag says that it is a minus. -/
def splitSign : List Char → Bool × List Char
  | '-' :: rest => (true, rest)
  | '+' :: rest => (false, rest)
  | rest => (false, rest)

/-- Reads the exponent that may end a numeral: nothing, or `e` and a whole number. -/
def readExponent? : List Char → Option Int
  | [] => some 0
  | e :: rest =>
    if e = 'e' ∨ e = 'E' then
      let (negative, digits) := splitSign rest
      if digits.isEmpty || !digits.all Char.isDigit then none
      else
        let value : Int := Decimal.natOfDigits digits
        some (if negative then -value else value)
    else none

/-- Splits an optional point and the digits after it from what follows. -/
def splitFraction : List Char → List Char × List Char
  | '.' :: rest => (rest.takeWhile Char.isDigit, rest.dropWhile Char.isDigit)
  | rest => ([], rest)

/-- Reads a numeral without sign; it has at least one digit before its exponent. -/
def readNumeral? (text : List Char) : Option Decimal :=
  let whole := text.takeWhile Char.isDigit
  let (fraction, rest) := splitFraction (text.dropWhile Char.isDigit)
  if whole.isEmpty && fraction.isEmpty then none
  else (readExponent? rest).map fun exponent =>
    let d := Decimal.ofPoint whole fraction
    ⟨d.digits, d.exponent + exponent⟩

def ofText? (text : String) : Option Float :=
  let (negative, magnitude) := splitSign text.toList
  let word := String.ofList (magnitude.map Char.toLower)
  if word = "inf" ∨ word = "infinity" then some (ofRank negative infinityRank)
  else if word = "nan" then some (0.0 / 0.0)
  else (readNumeral? magnitude).map fun d => ofRank negative d.nearestRank

end Scriptlet.Number
