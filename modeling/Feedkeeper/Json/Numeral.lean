import Feedkeeper.Json.Basic
import Feedkeeper.Json.Shortest
import Feedkeeper.Text.Digits

/-!
# Numerals

A numeral is a number as it is written: sign, whole digits, and if present fraction digits and an
exponent. `Numeral.parse?` accepts the JSON grammar, in which the whole part has no leading zero.
`toNumber?` gives the number that a numeral stands for, `ofNumber?` writes a number: an integer
that fits 64 bits keeps its digits, and any other number is a double, written with the fewest
digits that read back, positionally from 0.00001 up to sixteen whole digits. Outside that range it
has an exponent, which is signed and without leading zeros.
-/

namespace Feedkeeper.Json

/-- A number as written. -/
structure Numeral where
  negative : Bool
  whole : List Char
  fraction : Option (List Char) := none
  /-- Whether the exponent is negative, and its digits. -/
  exponent : Option (Bool × List Char) := none
  deriving DecidableEq, Repr

namespace Numeral

/-! ## The written form -/

/-- The exponent that the whole text is, or none for an empty text. -/
def parseExponent? : List Char → Option (Option (Bool × List Char))
  | [] => some none
  | mark :: rest =>
    if mark = 'e' ∨ mark = 'E' then
      let (negative, digits) := match rest with
        | '-' :: digits => (true, digits)
        | '+' :: digits => (false, digits)
        | digits => (false, digits)
      if digits ≠ [] ∧ digits.all Digits.isDigit then some (some (negative, digits)) else none
    else none

/-- The fraction, if a point begins one, and what follows it. -/
def parseFraction? : List Char → Option (Option (List Char) × List Char)
  | '.' :: rest =>
    let digits := rest.takeWhile Digits.isDigit
    if digits = [] then none else some (some digits, rest.dropWhile Digits.isDigit)
  | rest => some (none, rest)

/-- Reads a whole text as a numeral. -/
def parse? (chars : List Char) : Option Numeral := do
  let (negative, chars) := match chars with
    | '-' :: rest => (true, rest)
    | rest => (false, rest)
  let whole := chars.takeWhile Digits.isDigit
  if whole = [] ∨ (whole.head? = some '0' ∧ whole.length ≠ 1) then none
  let (fraction, rest) ← parseFraction? (chars.dropWhile Digits.isDigit)
  let exponent ← parseExponent? rest
  return { negative, whole, fraction, exponent }

/-- An exponent behind its mark, always with a sign. -/
def exponentText : Option (Bool × List Char) → List Char
  | none => []
  | some (negative, digits) => 'e' :: (if negative then '-' else '+') :: digits

/-- A fraction behind its point. -/
def fractionText : Option (List Char) → List Char
  | none => []
  | some digits => '.' :: digits

/-- The text of the numeral. -/
def text (numeral : Numeral) : List Char :=
  (if numeral.negative then ['-'] else []) ++ numeral.whole ++ fractionText numeral.fraction ++
    exponentText numeral.exponent

/-- A numeral without sign, fraction and exponent, as a natural number. -/
def toNat? (numeral : Numeral) : Option Nat :=
  if numeral.negative = false ∧ numeral.fraction = none ∧ numeral.exponent = none then
    some (Digits.value numeral.whole)
  else none

/-- The numeral of a natural number. -/
def ofNat (n : Nat) : Numeral :=
  { negative := false, whole := Digits.ofNat n }

/-- The numeral of an integer. -/
def ofInt (value : Int) : Numeral :=
  { negative := value < 0, whole := Digits.ofNat value.natAbs }

/-! ## From numerals to numbers -/

/-- Digits gathered into a word as long as it does not overflow, with the power of ten that the
digits left out make up for. -/
structure Gathered where
  significand : Nat
  exponent : Int

/-- Whole digits: from the first that overflows on, each counts a power of ten. -/
def gatherWhole : Nat → List Char → Gathered
  | significand, [] => ⟨significand, 0⟩
  | significand, c :: rest =>
    let next := 10 * significand + Digits.digitValue c
    if next < Nat.pow 2 64 then gatherWhole next rest else ⟨significand, (rest.length + 1 : Nat)⟩

/-- Fraction digits: each that fits lowers the power of ten, and the rest is dropped. -/
def gatherFraction : Gathered → List Char → Gathered
  | gathered, [] => gathered
  | gathered, c :: rest =>
    let next := 10 * gathered.significand + Digits.digitValue c
    if next < Nat.pow 2 64 then gatherFraction ⟨next, gathered.exponent - 1⟩ rest else gathered

/-- `10 ^ n` as a double. -/
def powerOfTen (n : Nat) : Float :=
  Float.ofScientific 1 false n

/-- The significand times a power of ten, by one multiplication or by divisions; `none` if the
result is not finite. A word divided by `10 ^ 308` twice is zero, so four rounds are enough. -/
def scale? : Nat → Float → Int → Option Float
  | 0, value, _ => some value
  | fuel + 1, value, exponent =>
    if exponent.natAbs ≤ 308 then
      if 0 ≤ exponent then
        let product := value * powerOfTen exponent.natAbs
        if product.isInf then none else some product
      else some (value / powerOfTen exponent.natAbs)
    else if value == 0.0 then some value
    else if 0 ≤ exponent then none
    else scale? fuel (value / powerOfTen 308) (exponent + 308)

/-- The largest exponent that is read as a number. -/
def exponentLimit : Nat := Nat.pow 2 31 - 1

/-- The double that the gathered digits and the written exponent stand for. -/
def toDouble? (negative : Bool) (gathered : Gathered) (exponent : Option (Bool × List Char)) :
    Option UInt64 := do
  let signed (value : Float) : UInt64 := (if negative then -value else value).toBits
  let written : Int := match exponent with
    | none => 0
    | some (below, digits) => if below then -(Digits.value digits : Int) else Digits.value digits
  if exponentLimit < written.natAbs then
    if gathered.significand ≠ 0 ∧ 0 ≤ written then none else some (signed 0.0)
  else
    let limit : Int := exponentLimit
    let total := max (-(limit + 1)) (min limit (gathered.exponent + written))
    let value ← scale? 4 (Float.ofNat gathered.significand) total
    return signed value

/-- The number that the numeral stands for; `none` if it is out of the range of doubles. -/
def toNumber? (numeral : Numeral) : Option Number :=
  let value := Digits.value numeral.whole
  if numeral.fraction = none ∧ numeral.exponent = none ∧ value < Nat.pow 2 64 then
    if numeral.negative = false then some (.int value)
    else if value = 0 ∨ Nat.pow 2 63 < value then some (.double (-(Float.ofNat value)).toBits)
    else some (.int (-value))
  else
    let gathered := gatherFraction (gatherWhole 0 numeral.whole) (numeral.fraction.getD [])
    (toDouble? numeral.negative gathered numeral.exponent).map .double

/-! ## From numbers to numerals -/

/-- The digits of `n · 10 ^ e` laid out: positionally if the leading digit stands at most sixteen
places before and at most five places behind the point, else with an exponent. -/
def layOut (negative : Bool) (n : Nat) (e : Int) : Numeral :=
  let digits := Digits.ofNat n
  let point : Int := digits.length + e
  if 0 ≤ e ∧ point ≤ 16 then
    { negative, whole := digits ++ List.replicate e.toNat '0', fraction := some ['0'] }
  else if 0 < point ∧ point ≤ 16 then
    { negative, whole := digits.take point.toNat, fraction := some (digits.drop point.toNat) }
  else if -5 < point ∧ point ≤ 0 then
    { negative, whole := ['0'], fraction := some (List.replicate (-point).toNat '0' ++ digits) }
  else
    { negative, whole := digits.take 1,
      fraction := if digits.length = 1 then none else some (digits.drop 1),
      exponent := some (point - 1 < 0, Digits.ofNat (point - 1).natAbs) }

/-- The numeral of a double; `none` if it is not finite. -/
def ofDouble? (bits : UInt64) : Option Numeral :=
  let bits := bits.toNat
  let negative := Nat.pow 2 63 ≤ bits
  let biased := bits / Nat.pow 2 52 % Nat.pow 2 11
  let fraction := bits % Nat.pow 2 52
  if biased = Nat.pow 2 11 - 1 then none
  else if biased = 0 ∧ fraction = 0 then
    some { negative, whole := ['0'], fraction := some ['0'] }
  else
    let (n, e) := Shortest.ofParts biased fraction
    some (layOut negative n e)

/-- The numeral of a number; `none` if it is a double that is not finite. -/
def ofNumber? : Number → Option Numeral
  | .int value => some (ofInt value)
  | .double bits => ofDouble? bits

end Numeral

end Feedkeeper.Json
