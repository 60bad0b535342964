/-!
# The shortest decimal of a double

A double is `m · 2^q`. Every real number nearer to it than to its neighbours rounds to it; the
two midpoints do so exactly when `m` is even. `Shortest.decimal` is the decimal in that interval
with the fewest digits, and of those with equally many the nearest to the double.

- `Double.decode`: significand and exponent from the bits.
- `Shortest.decimal`: digits `d` and exponent `p` of `d · 10^p`.
-/

namespace Componentry.Json

/-- A finite double without its sign: `significand · 2^exponent`. -/
structure Double where
  significand : Nat
  exponent : Int
  /-- The gap below is half the gap above: the significand is the least of its binade. -/
  lopsided : Bool

/-- Significand and exponent from the bits, sign left out. -/
def Double.decode (bits : UInt64) : Double :=
  let n : Nat := bits.toNat
  let frac : Nat := n % Nat.pow 2 52
  let expo : Nat := n / Nat.pow 2 52 % Nat.pow 2 11
  if expo = 0 then ⟨frac, -1074, false⟩
  else ⟨Nat.pow 2 52 + frac, Int.ofNat expo - 1075, frac = 0 && 1 < expo⟩

/-- The interval that rounds to a double, over a common denominator. -/
structure RoundingInterval where
  low : Nat
  value : Nat
  high : Nat
  denominator : Nat
  closed : Bool

def Double.interval (d : Double) : RoundingInterval :=
  let up := Nat.pow 2 (d.exponent - 2).toNat
  { low := (4 * d.significand - if d.lopsided then 1 else 2) * up
    value := 4 * d.significand * up
    high := (4 * d.significand + 2) * up
    denominator := Nat.pow 2 (2 - d.exponent).toNat
    closed := d.significand % 2 = 0 }

/-- `k · 10^p` as a fraction over `den`, both sides scaled to whole numbers. -/
def scaled (p : Int) (n den : Nat) : Nat × Nat :=
  (n * Nat.pow 10 (-p).toNat, den * Nat.pow 10 p.toNat)

/-- A multiple of `10^p` in the interval, the nearer of the value's two neighbours first. -/
def RoundingInterval.onGrid? (r : RoundingInterval) (p : Int) : Option Nat :=
  let (v, unit) := scaled p r.value r.denominator
  let (lo, _) := scaled p r.low r.denominator
  let (hi, _) := scaled p r.high r.denominator
  let below := v / unit
  let above := below + 1
  let inside (k : Nat) : Bool :=
    if r.closed then lo ≤ k * unit && k * unit ≤ hi else lo < k * unit && k * unit < hi
  let nearerAbove := 2 * v > (below + above) * unit ||
    (2 * v == (below + above) * unit && below % 2 == 1)
  let (first, second) := if nearerAbove then (above, below) else (below, above)
  if 0 < first && inside first then some first
  else if 0 < second && inside second then some second
  else none

/-- The first grid with a hit, from `10^p` down. -/
def RoundingInterval.search (r : RoundingInterval) : Nat → Int → Nat × Int
  | 0, p => (0, p)
  | fuel + 1, p =>
    match r.onGrid? p with
    | some k => (k, p)
    | none => r.search fuel (p - 1)

/-- Digits and decimal exponent of the shortest decimal that reads back as the double. -/
def Shortest.decimal (bits : UInt64) : Nat × Int :=
  let d := Double.decode bits
  if d.significand = 0 then (0, 0)
  else
    let r := d.interval
    let whole := r.high / r.denominator
    let start : Int :=
      if 0 < whole then (Nat.toDigits 10 whole).length
      else 1 - ((Nat.toDigits 10 (r.denominator / r.high)).length : Int)
    r.search 800 (start + 1)

end Componentry.Json
