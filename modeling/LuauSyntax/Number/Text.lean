import LuauSyntax.Number.Shortest

namespace LuauSyntax.Number

def Decimal.text (d : Decimal) : String :=
  let ds := Nat.toDigits 10 d.digits
  match d.scale with
  | .ofNat e => String.ofList (ds ++ List.replicate e '0')
  | .negSucc e =>
      let padded := List.replicate (e + 2 - ds.length) '0' ++ ds
      let whole := padded.length - (e + 1)
      String.ofList (padded.take whole ++ '.' :: padded.drop whole)

def magnitudeText (x : Number) : String :=
  match x.natAbs? with
  | some n => if n < Nat.pow 10 15 then String.ofList (Nat.toDigits 10 n) else x.shortest.text
  | none => x.shortest.text

def text (x : Number) : String :=
  if x.isNaN then "(0 / 0)"
  else if x.isInfinite then (if x.isNegative then "-math.huge" else "math.huge")
  else (if x.isNegative then "-" else "") ++ x.magnitudeText

end LuauSyntax.Number
