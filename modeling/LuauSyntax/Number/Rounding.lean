import LuauSyntax.Number

namespace LuauSyntax.Number

def roundEven (n d : Nat) : Nat :=
  let q := n / d
  let r := n % d
  if 2 * r < d ∨ (2 * r = d ∧ q % 2 = 0) then q else q + 1

def inUnits (n d : Nat) : Int → Nat × Nat
  | .ofNat e => (n, d * Nat.pow 2 e)
  | .negSucc e => (n * Nat.pow 2 (e + 1), d)

def unitExponent (n d : Nat) : Int :=
  let e : Int := Int.ofNat n.log2 - Int.ofNat d.log2 - 52
  let (a, b) := inUnits n d e
  max (if a / b < Nat.pow 2 52 then e - 1 else e) (-1074)

/-- The magnitude nearest to `n / d`. A rounded mantissa of `2 ^ 53` carries into the exponent, and
what is too large is infinite. -/
def nearestMagnitude (n d : Nat) : Nat :=
  if n = 0 then 0
  else
    let e := unitExponent n d
    let (a, b) := inUnits n d e
    min ((e + 1074).toNat * Nat.pow 2 52 + roundEven a b) (2047 * Nat.pow 2 52)

def ofMagnitude (negative : Bool) (m : Nat) : Number :=
  ⟨UInt64.ofNat ((if negative then Nat.pow 2 63 else 0) + m)⟩

def ofDecimal (negative : Bool) (mantissa : Nat) : Int → Number
  | .ofNat e => ofMagnitude negative (nearestMagnitude (mantissa * Nat.pow 10 e) 1)
  | .negSucc e => ofMagnitude negative (nearestMagnitude mantissa (Nat.pow 10 (e + 1)))

def ofNat (n : Nat) : Number :=
  ofDecimal false n 0

end LuauSyntax.Number
