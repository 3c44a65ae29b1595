/-! Binary floating-point numbers of 53 significant bits, as exact values. A finite number is
`mantissa * 2 ^ exponent`; rounding goes to the nearest such number, and a tie to the even
mantissa. -/
namespace SourceOutline

inductive Binary64 where
  | finite (negative : Bool) (mantissa : Nat) (exponent : Int)
  | infinite (negative : Bool)
  | notANumber
deriving DecidableEq, Repr

namespace Binary64

def precision : Nat := 53
def minExponent : Int := -1074
def maxExponent : Int := 971

def zero (negative : Bool) : Binary64 := .finite negative 0 minExponent

def roundDiv (n d : Nat) : Nat :=
  let q := n / d
  let r := n % d
  if 2 * r < d then q
  else if d < 2 * r then q + 1
  else q + q % 2

/-- `n * 2 ^ e` as a quotient of two natural numbers over the denominator `d`. -/
def scale (n d : Nat) (e : Int) : Nat × Nat :=
  if 0 ≤ e then (n * Nat.pow 2 e.toNat, d) else (n, d * Nat.pow 2 (-e).toNat)

def logRatio (n d : Nat) : Int :=
  let guess : Int := n.log2 - d.log2
  let (a, b) := scale n d (-guess)
  if b ≤ a then guess else guess - 1

def ofRatio (negative : Bool) (n d : Nat) : Binary64 :=
  if n == 0 then zero negative else
    let e := max minExponent (logRatio n d - (precision - 1))
    let (a, b) := scale n d (-e)
    let m := roundDiv a b
    let (m, e) := if m == Nat.pow 2 precision then (Nat.pow 2 (precision - 1), e + 1) else (m, e)
    if maxExponent < e then .infinite negative else .finite negative m e

/-- The number nearest to `digits * 10 ^ e`. Powers far outside the range are decided without being
computed. -/
def ofDecimal (negative : Bool) (digits : Nat) (e : Int) : Binary64 :=
  let magnitude : Int := e + (Nat.toDigits 10 digits).length
  if digits == 0 ∨ magnitude < -400 then zero negative
  else if 400 < magnitude then .infinite negative
  else if 0 ≤ e then ofRatio negative (digits * Nat.pow 10 e.toNat) 1
  else ofRatio negative digits (Nat.pow 10 (-e).toNat)

def ratio (m : Nat) (e : Int) : Nat × Nat := scale m 1 e

def signedRatio (negative : Bool) (n : Nat) : Int := if negative then -(n : Int) else n

def add : Binary64 → Binary64 → Binary64
  | .finite s m e, .finite t k f =>
    let (a, b) := ratio m e
    let (c, d) := ratio k f
    let sum := signedRatio s (a * d) + signedRatio t (c * b)
    if sum == 0 then zero (s && t) else ofRatio (decide (sum < 0)) sum.natAbs (b * d)
  | .notANumber, _ => .notANumber
  | _, .notANumber => .notANumber
  | .infinite s, .infinite t => if s == t then .infinite s else .notANumber
  | .infinite s, _ => .infinite s
  | _, .infinite t => .infinite t

def scaleBy (k : Nat) : Binary64 → Binary64
  | .finite s m e =>
    let (a, b) := ratio m e
    ofRatio s (a * k) b
  | x => x

def negate : Binary64 → Binary64
  | .finite s m e => .finite (!s) m e
  | .infinite s => .infinite (!s)
  | .notANumber => .notANumber

def isZero : Binary64 → Bool
  | .finite _ m _ => m == 0
  | _ => false

def toInt? : Binary64 → Option Int
  | .finite s m e =>
    let (a, b) := ratio m e
    if a % b == 0 then some (signedRatio s (a / b)) else none
  | _ => none

end Binary64

end SourceOutline
