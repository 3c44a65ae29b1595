import SourceOutline.Number.Binary64

/-! The shortest decimal form of a binary number: the fewest digits that read back as the same
number, and of those the nearest to it. -/
namespace SourceOutline

structure Decimal where
  digits : Nat
  exponent : Int
deriving DecidableEq, Repr

/-- How decimals are written: which positions of the point are written without an exponent, and how
many digits an exponent has at least. The position of the point is counted from the first digit. -/
structure DecimalLayout where
  lowestPoint : Int
  highestPoint : Int
  exponentDigits : Nat

namespace Binary64

/-- The reals that round to a number, all over one denominator: the value lies between the bounds,
and the bounds belong to it when the mantissa is even. Just above a power of two the lower half is
half as wide. -/
structure Interval where
  value : Nat
  low : Nat
  high : Nat
  denominator : Nat
  closed : Bool

def interval (m : Nat) (e : Int) : Interval :=
  let below := if m == Nat.pow 2 (precision - 1) && decide (minExponent < e) then 1 else 2
  let quarter := e - 2
  let num (k : Nat) : Nat := (scale k 1 quarter).1
  ⟨num (4 * m), num (4 * m - below), num (4 * m + 2), (scale 1 1 quarter).2, m % 2 == 0⟩

def Interval.contains (i : Interval) (n d : Nat) : Bool :=
  if i.closed then decide (i.low * d ≤ n * i.denominator) && decide (n * i.denominator ≤ i.high * d)
  else decide (i.low * d < n * i.denominator) && decide (n * i.denominator < i.high * d)

def Interval.point (i : Interval) : Int :=
  (Nat.toDigits 10 (i.value * Nat.pow 10 400 / i.denominator)).length - 400

def gridPoint (k : Nat) (j : Int) : Nat × Nat :=
  if 0 ≤ j then (k * Nat.pow 10 j.toNat, 1) else (k, Nat.pow 10 (-j).toNat)

/-- Of the two neighbours of the value on the grid of step `10 ^ j`, the nearer one that reads back,
if any does; halfway between them the even one is the nearer. -/
def Interval.onGrid? (i : Interval) (j : Int) : Option Decimal :=
  let (step, unit) := gridPoint 1 j
  let k := i.value * unit / (i.denominator * step)
  let reads (k : Nat) : Bool := let (n, d) := gridPoint k j; i.contains n d
  let rest := i.value * unit - k * (i.denominator * step)
  let whole := i.denominator * step
  let nearer := if 2 * rest < whole then k else if whole < 2 * rest then k + 1 else k + k % 2
  let other := if nearer == k then k + 1 else k
  if reads nearer then some ⟨nearer, j⟩ else if reads other then some ⟨other, j⟩ else none

/-- Tries ever finer grids; seventeen digits always read back. -/
def Interval.shortest (i : Interval) (point : Int) : Nat → Nat → Decimal
  | 0, n => ⟨i.value, n⟩
  | fuel + 1, n => (i.onGrid? (point - n)).getD (i.shortest point fuel (n + 1))

def shortest (m : Nat) (e : Int) : Decimal :=
  let i := interval m e
  i.shortest i.point 18 1

end Binary64

def Decimal.normal (d : Decimal) : List Char × Int :=
  let ds := Nat.toDigits 10 d.digits
  let kept := (ds.reverse.dropWhile (· == '0')).reverse
  (if kept.isEmpty then ['0'] else kept, d.exponent + ds.length)

def DecimalLayout.exponent (l : DecimalLayout) (e : Int) : List Char :=
  let ds := Nat.toDigits 10 e.natAbs
  (if e < 0 then '-' else '+') :: (List.replicate (l.exponentDigits - ds.length) '0' ++ ds)

/-- Writes a decimal: with a point inside or beside the digits where the layout allows it, else with
an exponent. -/
def DecimalLayout.write (l : DecimalLayout) (d : Decimal) : List Char :=
  let (ds, point) := d.normal
  if l.lowestPoint < point ∧ point ≤ l.highestPoint then
    if point ≤ 0 then '0' :: '.' :: (List.replicate (-point).toNat '0' ++ ds)
    else
      let whole := ds.take point.toNat ++ List.replicate (point.toNat - ds.length) '0'
      let fraction := ds.drop point.toNat
      whole ++ '.' :: (if fraction.isEmpty then ['0'] else fraction)
  else
    let mantissa := match ds with
      | [] => []
      | [c] => [c]
      | c :: rest => c :: '.' :: rest
    mantissa ++ 'e' :: l.exponent (point - 1)

end SourceOutline
