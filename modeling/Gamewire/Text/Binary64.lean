import Gamewire.Text.Numeral

/-! Which decimals are too large for a binary64 number. -/
namespace Gamewire.Text
set_option autoImplicit false

/-- Whether `digits · 10 ^ exponent` rounds to more than the largest finite binary64 number, which
it does from half a unit above that number on. Outside the decade of the limit the number of
digits decides, so that no power is larger than the input. -/
def exceedsBinary64 (digits : List Char) (exponent : Int) : Bool :=
  let digits := digits.dropWhile (· == '0')
  let limit := Nat.pow 2 1024 - Nat.pow 2 970
  let magnitude : Int := digits.length + exponent
  if digits.isEmpty || magnitude < 309 then false
  else if 309 < magnitude then true
  else
    let n := (numeral? 10 digits).getD 0
    if 0 ≤ exponent then decide (limit ≤ n * Nat.pow 10 exponent.toNat)
    else decide (limit * Nat.pow 10 (-exponent).toNat ≤ n)

end Gamewire.Text
