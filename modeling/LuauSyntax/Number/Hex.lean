import LuauSyntax.Number

namespace LuauSyntax.Number

def hexDigits (n : Nat) : Nat → List Char
  | 0 => []
  | k + 1 => hexDigits (n / 16) k ++ [Nat.digitChar (n % 16)]

def toHex (x : Number) : String :=
  String.ofList ('0' :: 'x' :: hexDigits x.bits.toNat 16)

def hexValue? (c : Char) : Option Nat :=
  if '0' ≤ c ∧ c ≤ '9' then some (c.toNat - '0'.toNat)
  else if 'a' ≤ c ∧ c ≤ 'f' then some (c.toNat - 'a'.toNat + 10)
  else none

def ofHex? (s : String) : Option Number :=
  match s.toList with
  | '0' :: 'x' :: ds =>
      if ds.length = 16 then
        (ds.mapM hexValue?).map fun vs => ⟨UInt64.ofNat (vs.foldl (fun n v => 16 * n + v) 0)⟩
      else none
  | _ => none

end LuauSyntax.Number
