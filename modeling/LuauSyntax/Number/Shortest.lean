import LuauSyntax.Number

namespace LuauSyntax.Number

structure Decimal where
  digits : Nat
  scale : Int
deriving DecidableEq, Repr

structure Span where
  low : Nat
  value : Nat
  high : Nat
  unit : Int
  closed : Bool
deriving DecidableEq, Repr

/-- Below a power of two the neighbours are half as far apart. -/
def span (x : Number) : Span where
  low := 4 * x.mantissa - (if x.fraction = 0 ∧ 1 < x.exponentField then 1 else 2)
  value := 4 * x.mantissa
  high := 4 * x.mantissa + 2
  unit := x.exponent - 2
  closed := x.mantissa % 2 == 0

namespace Span

def unitFactor (s : Span) (p : Int) : Nat :=
  Nat.pow 2 s.unit.toNat * Nat.pow 10 (-p).toNat

def gridFactor (s : Span) (p : Int) : Nat :=
  Nat.pow 2 (-s.unit).toNat * Nat.pow 10 p.toNat

def holds (s : Span) (p : Int) (t : Nat) : Bool :=
  let x := t * s.gridFactor p
  let low := s.low * s.unitFactor p
  let high := s.high * s.unitFactor p
  if s.closed then low ≤ x && x ≤ high else low < x && x < high

def nearest? (s : Span) (p : Int) : Option Nat :=
  let v := s.value * s.unitFactor p
  let g := s.gridFactor p
  let t := v / g
  let below := t != 0 && s.holds p t
  let above := s.holds p (t + 1)
  if above && (!below || g ≤ 2 * (v % g)) then some (t + 1)
  else if below then some t
  else none

def search (s : Span) : Nat → Int → Decimal
  | 0, p => ⟨s.value * s.unitFactor p / s.gridFactor p, p⟩
  | n + 1, p =>
      match s.nearest? p with
      | some t => ⟨t, p⟩
      | none => s.search n (p - 1)

end Span

def wholeDigits (x : Number) : Nat :=
  let whole := x.mantissa * Nat.pow 2 x.exponent.toNat / Nat.pow 2 (-x.exponent).toNat
  (Nat.toDigits 10 whole).length

def shortest (x : Number) : Decimal :=
  x.span.search (x.wholeDigits + 1076) x.wholeDigits

end LuauSyntax.Number
