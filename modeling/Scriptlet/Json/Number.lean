import Scriptlet.Json.Basic
import Scriptlet.Json.Error
import Scriptlet.Number.Read
import Scriptlet.Reading

/-! Numbers in JSON text. The parts of a numeral are cut off first. Its digits are then collected in
a machine word as long as they fit; what does not fit only counts towards the exponent. A numeral
with a point or an exponent, and one whose digits do not fit, is the word scaled by a power of ten
in double arithmetic, which rounds once for the word, once for the power and once for the product or
quotient. -/
namespace Scriptlet.Json

/-- An exponent as written: whether it is negative, and its digits. -/
structure WrittenExponent where
  negative : Bool
  digits : List Char

structure Numeral where
  negative : Bool
  digits : List Char
  fraction : List Char
  exponent : Option WrittenExponent

def cutDigits (cs : List Char) : List Char × List Char :=
  (cs.takeWhile Char.isDigit, cs.dropWhile Char.isDigit)

theorem cutDigits_length_le (cs : List Char) : (cutDigits cs).2.length ≤ cs.length :=
  (List.dropWhile_sublist Char.isDigit).length_le

/-- Cuts off the digits of an exponent, at least one. -/
def cutExponentDigits (negative : Bool) (cs : List Char) :
    Except Stop (Reading Char WrittenExponent (cs.length + 1)) :=
  match cs with
  | [] => stopAt .endInValue []
  | c :: rest =>
    if c.isDigit then
      .ok ⟨⟨negative, c :: (cutDigits rest).1⟩, (cutDigits rest).2,
        Nat.lt_succ_of_le (Nat.le_succ_of_le (cutDigits_length_le rest))⟩
    else stopAt .invalidNumber rest

/-- Cuts off what follows the letter of an exponent: an optional sign and the digits. -/
def cutExponent (cs : List Char) :
    Except Stop (Reading Char WrittenExponent (cs.length + 1)) :=
  match cs with
  | [] => cutExponentDigits false []
  | c :: rest =>
    if c = '+' ∨ c = '-' then do
      return (← cutExponentDigits (c = '-') rest).widen (Nat.le_succ _)
    else cutExponentDigits false (c :: rest)

def cutScale (cs : List Char) :
    Except Stop (Reading Char (Option WrittenExponent) (cs.length + 1)) :=
  match cs with
  | [] => .ok (.leaving [] none)
  | c :: rest =>
    if c = 'e' ∨ c = 'E' then do
      let exponent ← cutExponent rest
      return ⟨some exponent.node, exponent.rest, Nat.lt_succ_of_lt exponent.within⟩
    else .ok (.leaving (c :: rest) none)

/-- Cuts off an optional point and the digits after it, at least one. -/
def cutFraction (cs : List Char) : Except Stop (Reading Char (List Char) (cs.length + 1)) :=
  match cs with
  | '.' :: after =>
    match cutDigits after with
    | ([], []) => stopPast .endInValue []
    | ([], rest) => stopPast .invalidNumber rest
    | _ => .ok ⟨(cutDigits after).1, (cutDigits after).2,
        Nat.lt_succ_of_lt (Nat.lt_succ_of_le (cutDigits_length_le after))⟩
  | rest => .ok (.leaving rest [])

/-- Cuts off a numeral after its sign. Its first digit is a zero only if it has no other digit
before the point. -/
def cutNumeral (negative : Bool) (cs : List Char) :
    Except Stop (Reading Char Numeral cs.length) :=
  match cs with
  | [] => stopAt .endInValue []
  | c :: after =>
    if !c.isDigit then stopAt .invalidNumber after
    else
      let more := cutDigits after
      if c = '0' ∧ more.1 ≠ [] then stopPast .invalidNumber after
      else do
        let fraction ← cutFraction more.2
        let scale ← cutScale fraction.rest
        return ⟨⟨negative, c :: more.1, fraction.node, scale.node⟩, scale.rest, by
          have := cutDigits_length_le after
          have := fraction.within
          have := scale.within
          simp only [List.length_cons, more] at *
          omega⟩

def wordMax : Nat := 0xffffffffffffffff

/-- The greatest exponent that is taken as written. -/
def exponentMax : Nat := 0x7fffffff

/-- Puts digits behind a number up to the first that would take it beyond `most`: the number, and
how many digits it took. -/
def absorb (most number : Nat) : List Char → Nat × Nat
  | [] => (number, 0)
  | d :: rest =>
    let longer := 10 * number + (d.toNat - '0'.toNat)
    if most < longer then (number, 0)
    else
      let (final, taken) := absorb most longer rest
      (final, taken + 1)

/-- The double nearest to a power of ten. -/
def powerOfTen (exponent : Nat) : Float := Decimal.toFloat ⟨1, exponent⟩

/-- Divides by a power of ten, by the greatest one that is a double as often as it takes. -/
def scaleDown (x : Float) (exponent : Nat) : Float :=
  if exponent ≤ 308 then x / powerOfTen exponent
  else if x == 0 then x
  else scaleDown (x / powerOfTen 308) (exponent - 308)
  termination_by exponent
  decreasing_by omega

/-- Scales a word by a power of ten; there is no result beyond the doubles. -/
def scale? (word : Nat) (exponent : Int) : Option Float :=
  let x := word.toUInt64.toFloat
  if exponent < 0 then some (scaleDown x exponent.natAbs)
  else if exponent ≤ 308 then
    let scaled := x * powerOfTen exponent.toNat
    if scaled.isInf then none else some scaled
  else if x == 0 then some x
  else none

/-- A number with its sign. -/
def signed (negative : Bool) (x : Float) : Json := .float (if negative then -x else x)

/-- A whole number. Minus zero and what is below the least negative word are doubles. -/
def whole (negative : Bool) (word : Nat) : Json :=
  if !negative then .integer word
  else if 0 < word ∧ word ≤ 0x8000000000000000 then .integer (-word)
  else signed true word.toUInt64.toFloat

/-- The value of a numeral. A numeral beyond the doubles has none; the error tells how many digits
at its end do not matter for that. -/
def Numeral.value (n : Numeral) : Except Nat Json :=
  let (word, taken) := absorb wordMax 0 n.digits
  let (word, placed) := absorb wordMax word n.fraction
  let exponent : Int := (n.digits.length - taken : Int) - placed
  let scaled (exponent : Int) : Except Nat Json :=
    match scale? word exponent with
    | some x => .ok (signed n.negative x)
    | none => .error 0
  match n.exponent with
  | none =>
    if taken = n.digits.length ∧ n.fraction = [] then .ok (whole n.negative word)
    else scaled exponent
  | some written =>
    let (size, read) := absorb exponentMax 0 written.digits
    if read = written.digits.length then
      scaled (if written.negative then exponent - size else exponent + size)
    else if word ≠ 0 ∧ !written.negative then .error (written.digits.length - read - 1)
    else .ok (signed n.negative 0)

def readNumber (negative : Bool) (cs : List Char) : Except Stop (Reading Char Json cs.length) := do
  let numeral ← cutNumeral negative cs
  match numeral.node.value with
  | .ok value => return ⟨value, numeral.rest, numeral.within⟩
  | .error unread => .error ⟨.numberOutOfRange, byteCount numeral.rest + unread⟩

end Scriptlet.Json
