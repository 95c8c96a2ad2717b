/-!
The shortest decimal that reads back as a given binary floating-point number. A finite positive
number is m · 2^q; all reals nearer to it than to its neighbours read back as it, and so do the
two midpoints when m is even. Among the decimals with the fewest digits in that interval the
nearest one is chosen.
-/
namespace VtableMerge.Decimal

/-- A finite positive number m · 2^q. The first number of a binade has its lower neighbour only
half as far away as the upper one. -/
structure Binary where
  mantissa : Nat
  exponent : Int
  startsBinade : Bool

/-- The bit in front of the fraction of 52 bits, which is not stored. -/
def Binary.hidden : Nat := 1 <<< 52

/-- The magnitude of the finite number with given bits. -/
def Binary.ofBits (bits : UInt64) : Binary :=
  let fraction := bits.toNat % hidden
  let biased := bits.toNat / hidden % 2048
  if biased = 0 then ⟨fraction, -1074, false⟩
  else ⟨fraction + hidden, (biased : Int) - 1075, fraction = 0 && 1 < biased⟩

/-- The number digits · 10^exponent. -/
structure Scientific where
  digits : Nat
  exponent : Int
deriving DecidableEq

/-- A number and the ends of its interval, in units of a power of ten and over one denominator. -/
structure Interval where
  low : Nat
  value : Nat
  high : Nat
  unit : Nat
  closed : Bool

def Binary.interval (b : Binary) (exponent : Int) : Interval :=
  let up := Nat.pow 2 b.exponent.toNat * Nat.pow 10 (-exponent).toNat
  let below := if b.startsBinade then 1 else 2
  { low := (4 * b.mantissa - below) * up
    value := 4 * b.mantissa * up
    high := (4 * b.mantissa + 2) * up
    unit := 4 * (Nat.pow 2 (-b.exponent).toNat * Nat.pow 10 exponent.toNat)
    closed := b.mantissa % 2 = 0 }

def Interval.contains (i : Interval) (n : Nat) : Bool :=
  if i.closed then i.low ≤ n * i.unit && n * i.unit ≤ i.high
  else i.low < n * i.unit && n * i.unit < i.high

/-- The whole number of units inside the interval that is nearest to the value; of two equally
near ones the even one. Only the two neighbours of the value come into question. -/
def Interval.nearest? (i : Interval) : Option Nat :=
  let floor := i.value / i.unit
  match i.contains floor, i.contains (floor + 1) with
  | false, false => none
  | true, false => some floor
  | false, true => some (floor + 1)
  | true, true =>
    let past := 2 * (i.value % i.unit)
    if past < i.unit || (past = i.unit && floor % 2 = 0) then some floor else some (floor + 1)

/-- The first power of ten with a multiple in the interval, going down from a given one. -/
def Binary.search (b : Binary) : Nat → Int → Scientific
  | 0, exponent => ⟨0, exponent⟩
  | steps + 1, exponent =>
    match (b.interval exponent).nearest? with
    | some digits => ⟨digits, exponent⟩
    | none => b.search steps (exponent - 1)

/-- All finite numbers of 64 bits lie below 10^309, and all are multiples of 10^-1074. -/
def Binary.shortest (b : Binary) : Scientific := b.search 1384 309

end VtableMerge.Decimal
