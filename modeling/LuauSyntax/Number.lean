namespace LuauSyntax

structure Number where
  bits : UInt64
deriving DecidableEq, Repr, Inhabited

namespace Number

def isNegative (x : Number) : Bool :=
  Nat.pow 2 63 ≤ x.bits.toNat

def magnitude (x : Number) : Nat :=
  x.bits.toNat % Nat.pow 2 63

def exponentField (x : Number) : Nat :=
  x.magnitude / Nat.pow 2 52

def fraction (x : Number) : Nat :=
  x.magnitude % Nat.pow 2 52

def isNaN (x : Number) : Bool :=
  x.exponentField == 2047 && x.fraction != 0

def isInfinite (x : Number) : Bool :=
  x.exponentField == 2047 && x.fraction == 0

def isZero (x : Number) : Bool :=
  x.magnitude == 0

def mantissa (x : Number) : Nat :=
  if x.exponentField = 0 then x.fraction else Nat.pow 2 52 + x.fraction

def exponent (x : Number) : Int :=
  Int.ofNat (max x.exponentField 1) - 1075

def equals (x y : Number) : Bool :=
  !x.isNaN && !y.isNaN && (x == y || (x.isZero && y.isZero))

def natAbs? (x : Number) : Option Nat :=
  match x.exponent with
  | .ofNat e => some (x.mantissa * Nat.pow 2 e)
  | .negSucc e =>
      if x.mantissa % Nat.pow 2 (e + 1) = 0 then some (x.mantissa / Nat.pow 2 (e + 1)) else none

end Number

end LuauSyntax
