import VtableMerge.Decimal.Shortest

/-!
Numbers of JSON texts. A numeral is what stands in the text; its value is an integer when it has
neither fraction nor exponent and fits 64 bits, signed or unsigned, and otherwise a binary
floating-point number.
-/
namespace VtableMerge.Json

/-- An integer, or a floating-point number given by its bits. -/
inductive Number
  | int (value : Int)
  | float (bits : UInt64)
deriving DecidableEq

/-- The exponent part of a numeral. -/
structure Exponent where
  isNegative : Bool
  digits : List Nat
deriving DecidableEq

/-- A numeral as written. The fraction is empty when there is no point. -/
structure Numeral where
  isNegative : Bool
  whole : List Nat
  fraction : List Nat
  exponent : Option Exponent
deriving DecidableEq

namespace Numeral

/-- The numeral of an integer. -/
def ofInt (n : Int) : Numeral :=
  ⟨n < 0, (Nat.toDigits 10 n.natAbs).map fun c => c.toNat - '0'.toNat, [], none⟩

/-- Appends digits to a significand of 64 bits until one does not fit. The second component
counts the digits left out. -/
def absorb (significand : Nat) : List Nat → Nat × Nat
  | [] => (significand, 0)
  | d :: ds =>
    if significand * 10 + d < UInt64.size then absorb (significand * 10 + d) ds
    else (significand, ds.length + 1)

def ofDigits (ds : List Nat) : Nat := ds.foldl (fun n d => n * 10 + d) 0

def powerOfTen (n : Nat) : Float := Float.ofScientific 1 false n

/-- Divides by powers of ten in steps of 10^308. Three steps bring every significand to zero. -/
def scaleDown : Nat → Float → Nat → Float
  | 0, f, _ => f
  | steps + 1, f, n =>
    if n ≤ 308 then f / powerOfTen n else scaleDown steps (f / powerOfTen 308) (n - 308)

/-- A significand times a power of ten, rounded after the conversion and after the scaling.
There is no value when it is too large. -/
def scale? (significand : Nat) (exponent : Int) : Option Float :=
  let f := (UInt64.ofNat significand).toFloat
  if exponent < 0 then some (scaleDown 4 f exponent.natAbs)
  else if 308 < exponent then if significand = 0 then some f else none
  else
    let scaled := f * powerOfTen exponent.natAbs
    if scaled.isInf then none else some scaled

/-- The exponent part as a number; beyond 31 bits it only has a sign. -/
def exponentValue (e : Option Exponent) : Int :=
  match e with
  | none => 0
  | some e => if e.isNegative then -(ofDigits e.digits : Int) else ofDigits e.digits

def float? (n : Numeral) : Option Float :=
  let (head, leftOut) := absorb 0 n.whole
  let (significand, unread) := absorb head n.fraction
  let shift : Int := leftOut - (n.fraction.length - unread : Nat)
  (scale? significand (shift + exponentValue n.exponent)).map fun f =>
    if n.isNegative then -f else f

/-- The value of a numeral, unless it is out of range. -/
def value? (n : Numeral) : Option Number :=
  let magnitude := ofDigits n.whole
  if n.fraction.isEmpty && n.exponent.isNone then
    if !n.isNegative && magnitude < UInt64.size then some (.int magnitude)
    else if n.isNegative && 0 < magnitude && magnitude ≤ UInt64.size / 2 then
      some (.int (-magnitude))
    else n.float?.map fun f => .float f.toBits
  else n.float?.map fun f => .float f.toBits

end Numeral

/-- How floating-point numbers are written: digits without exponent where the leading one stands
for a power of ten in a range, and otherwise one digit before the point and a signed exponent. -/
structure FloatStyle where
  lowest : Int
  highest : Int

def floatStyle : FloatStyle := ⟨-5, 15⟩

namespace FloatStyle

def exponentText (exponent : Int) : String :=
  (if exponent < 0 then "e-" else "e+") ++ toString exponent.natAbs

/-- The text of digits · 10^exponent. -/
def text (style : FloatStyle) (s : Decimal.Scientific) : String :=
  let digits := Nat.toDigits 10 s.digits
  let leading : Int := digits.length - 1 + s.exponent
  if style.lowest ≤ leading && leading ≤ style.highest then
    if 0 ≤ s.exponent then
      String.ofList (digits ++ List.replicate s.exponent.natAbs '0') ++ ".0"
    else if 0 ≤ leading then
      let whole := leading.natAbs + 1
      String.ofList (digits.take whole) ++ "." ++ String.ofList (digits.drop whole)
    else
      "0." ++ String.ofList (List.replicate (leading.natAbs - 1) '0' ++ digits)
  else
    String.ofList (digits.take 1)
      ++ (if digits.length = 1 then "" else "." ++ String.ofList (digits.drop 1))
      ++ exponentText leading

end FloatStyle

/-- The text of the floating-point number with given bits. -/
def floatText (bits : UInt64) : String :=
  let sign := if bits >>> 63 = 1 then "-" else ""
  let magnitude := Decimal.Binary.ofBits bits
  sign ++ if magnitude.mantissa = 0 then "0.0" else floatStyle.text magnitude.shortest

def Number.text : Number → String
  | .int value => toString value
  | .float bits => floatText bits

end VtableMerge.Json
