/-! Doubles, as far as whole numbers go: they keep 53 significant bits, and nothing that
rounds to 2 ^ 1024 or more. -/
namespace HistoryRelay.Double

/-- The least magnitude that is too large: half a last place below 2 ^ 1024, where the tie goes
up. -/
def limit : Nat := Nat.pow 2 1024 - Nat.pow 2 970

/-- The nearest number with 53 significant bits; of two as near, the one whose last bit is 0. -/
def round (n : Nat) : Nat :=
  let unit := Nat.pow 2 (n.log2 - 52)
  let low := n / unit
  let twice := 2 * (n % unit)
  if twice < unit || (twice = unit && low % 2 = 0) then low * unit else (low + 1) * unit

def roundSigned (n : Int) : Int := if n < 0 then -(round n.natAbs : Int) else round n.natAbs

/-- Whether `digits * 10 ^ exponent` is too large, rounded once. -/
def overflows (digits : Nat) (exponent : Int) : Bool :=
  let places := (-exponent).toNat
  if digits = 0 then false
  else if 308 < exponent then true
  else if 0 ≤ exponent then limit ≤ digits * Nat.pow 10 exponent.toNat
  -- a quick answer where the power of ten would be far larger than the digits
  else if digits.log2 < 3 * places then false
  else limit * Nat.pow 10 places ≤ digits

end HistoryRelay.Double
