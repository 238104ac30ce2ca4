import Conform.Numeric.Decimal

namespace Conform.Binary64

private def zeros (n : Nat) : String := String.ofList (List.replicate n '0')

private def sign (x : Binary64) : String := if x.negative then "-" else ""

private def positional (d : Decimal) : String :=
  let digits := Nat.toDigits 10 d.digits
  let behind := (-d.exponent).toNat
  if behind = 0 then String.ofList digits ++ zeros d.exponent.toNat
  else if behind < digits.length then
    String.ofList (digits.take (digits.length - behind)) ++ "." ++
      String.ofList (digits.drop (digits.length - behind))
  else "0." ++ zeros (behind - digits.length) ++ String.ofList digits

/-- Full positional notation: never an exponent, and no fraction on an integral value. -/
def plain (x : Binary64) : String :=
  x.sign ++ positional (x.shortest .up)

/-- Positional notation with at least one digit behind the point from `10 ^ (-5)` up to `10 ^ 16`,
and otherwise one digit before the point and a power of ten, with `plus` as the sign of a positive
exponent. -/
def compact (plus : String) (x : Binary64) : String :=
  let d := x.shortest .even
  let digits := Nat.toDigits 10 d.digits
  let places : Int := digits.length + d.exponent
  x.sign ++
    if d.digits = 0 then "0.0"
    else if 0 ≤ d.exponent ∧ places ≤ 16 then positional d ++ ".0"
    else if -5 < places ∧ places ≤ 16 then positional d
    else
      let mantissa :=
        match digits with
        | first :: second :: rest => String.ofList (first :: '.' :: second :: rest)
        | _ => String.ofList digits
      mantissa ++ "e" ++ (if 0 < places then plus else "") ++ toString (places - 1)

end Conform.Binary64
