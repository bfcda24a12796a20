/-!
# Shortest decimals

The shortest decimal that reads back as a given double. A finite positive double is
`significand · 2 ^ exponent`; the reals that round to it form an interval around it, whose ends
belong to it exactly if the significand is even. For one digit, two digits and so on up to
seventeen, the two multiples of the matching power of ten beside the value are tried: the first
grid with a multiple in the interval gives the answer, and of two such multiples the nearer one,
an even last digit breaking a tie.
-/

namespace Feedkeeper

namespace Shortest

/-- A positive rational number. -/
structure Ratio where
  num : Nat
  den : Nat

/-- `n · 2 ^ e`. -/
def Ratio.scaled (n : Nat) (e : Int) : Ratio :=
  if 0 ≤ e then ⟨n * Nat.pow 2 e.toNat, 1⟩ else ⟨n, Nat.pow 2 (-e).toNat⟩

/-- `n · 10 ^ e`. -/
def Ratio.decimal (n : Nat) (e : Int) : Ratio :=
  if 0 ≤ e then ⟨n * Nat.pow 10 e.toNat, 1⟩ else ⟨n, Nat.pow 10 (-e).toNat⟩

/-- Whether a rational number is less than another. -/
def Ratio.lt (a b : Ratio) : Bool :=
  a.num * b.den < b.num * a.den

/-- Whether a rational number is at most another. -/
def Ratio.le (a b : Ratio) : Bool :=
  a.num * b.den ≤ b.num * a.den

/-- The largest natural number `n` such that `n · 10 ^ e` is at most the value. -/
def Ratio.floorAt (value : Ratio) (e : Int) : Nat :=
  if 0 ≤ e then value.num / (value.den * Nat.pow 10 e.toNat)
  else value.num * Nat.pow 10 (-e).toNat / value.den

/-- A double as a multiple of a power of two, with the reals that round to it. -/
structure Rounding where
  value : Ratio
  low : Ratio
  high : Ratio
  /-- The ends of the interval round to the value too. -/
  closed : Bool

/-- The double with the biased exponent and the fraction bits. The gap below a power of two is
half of the gap above it. -/
def Rounding.ofParts (biased fraction : Nat) : Rounding :=
  let significand := if biased = 0 then fraction else fraction + Nat.pow 2 52
  let exponent : Int := (if biased = 0 then 1 else (biased : Int)) - 1075
  let below := if fraction = 0 ∧ 1 < biased then 1 else 2
  ⟨.scaled (4 * significand) (exponent - 2), .scaled (4 * significand - below) (exponent - 2),
    .scaled (4 * significand + 2) (exponent - 2), significand % 2 == 0⟩

/-- Whether the decimal reads back as the double. -/
def Rounding.holds (rounding : Rounding) (candidate : Ratio) : Bool :=
  if rounding.closed then rounding.low.le candidate && candidate.le rounding.high
  else rounding.low.lt candidate && candidate.lt rounding.high

/-- The exponent of the leading decimal digit, searched upwards from the least exponent of a
double. -/
def leadingExponent (value : Ratio) : Nat → Int → Int
  | 0, e => e
  | fuel + 1, e => if value.lt (.decimal 1 (e + 1)) then e else leadingExponent value fuel (e + 1)

/-- The candidate among `n` and `n + 1` on the grid of `10 ^ e`, if one reads back. -/
def pick (rounding : Rounding) (n : Nat) (e : Int) : Option Nat :=
  let below := rounding.holds (.decimal n e)
  let above := rounding.holds (.decimal (n + 1) e)
  if below && above then
    -- twice the value against the sum of the two candidates
    let twice : Ratio := ⟨2 * rounding.value.num, rounding.value.den⟩
    let middle := Ratio.decimal (2 * n + 1) e
    if twice.lt middle then some n
    else if middle.lt twice then some (n + 1)
    else some (if n % 2 = 0 then n else n + 1)
  else if below then some n
  else if above then some (n + 1)
  else none

/-- The shortest decimal `digits · 10 ^ exponent`, tried with ever more digits. -/
def search (rounding : Rounding) : Nat → Int → Nat × Int
  | 0, e => (rounding.value.floorAt e, e)
  | fuel + 1, e =>
    match pick rounding (rounding.value.floorAt e) e with
    | some n => (n, e)
    | none => search rounding fuel (e - 1)

/-- A decimal without trailing zeros. -/
def stripZeros : Nat → Nat × Int → Nat × Int
  | 0, decimal => decimal
  | fuel + 1, (n, e) =>
    if n ≠ 0 ∧ n % 10 = 0 then stripZeros fuel (n / 10, e + 1) else (n, e)

/-- The decimal `n · 10 ^ e` of least length that reads back as the positive double with the
biased exponent and the fraction bits. -/
def ofParts (biased fraction : Nat) : Nat × Int :=
  let rounding := Rounding.ofParts biased fraction
  let leading := leadingExponent rounding.value 700 (-330)
  stripZeros 20 (search rounding 17 leading)

end Shortest

end Feedkeeper
