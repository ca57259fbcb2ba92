/-! Finite binary numbers of 53 bits, in exact arithmetic: the nearest to a ratio, with ties to
even, and the result of scaling by a power of ten with one rounding a step. -/
namespace Ldap.Decimal

/-- The number `mantissa * 2 ^ exponent`, with the exponent as small as 53 bits and -1074 allow. -/
structure Binary64 where
  mantissa : Nat
  exponent : Int
  deriving Repr, DecidableEq

namespace Binary64

def zero : Binary64 := ⟨0, -1074⟩

def nearest (num den : Nat) : Nat :=
  let m := num / den
  let r := num % den
  if 2 * r < den then m else if den < 2 * r then m + 1 else m + m % 2

def shifted (num den : Nat) (e : Int) : Nat × Nat :=
  (num * Nat.pow 2 e.toNat, den * Nat.pow 2 (-e).toNat)

def ofRatio (num den : Nat) : Option Binary64 :=
  if num = 0 then some zero else
  let guess := max (-1074) ((num.log2 : Int) - den.log2 - 53)
  let (n, d) := shifted num den (-guess)
  let exponent := if Nat.pow 2 53 ≤ n / d then guess + 1 else guess
  let (n, d) := shifted num den (-exponent)
  let mantissa := nearest n d
  let (mantissa, exponent) :=
    if mantissa = Nat.pow 2 53 then (Nat.pow 2 52, exponent + 1) else (mantissa, exponent)
  if mantissa = 0 then some zero else if 971 < exponent then none else some ⟨mantissa, exponent⟩

def mul (x y : Binary64) : Option Binary64 :=
  let (n, d) := shifted (x.mantissa * y.mantissa) 1 (x.exponent + y.exponent)
  ofRatio n d

def div (x y : Binary64) : Option Binary64 :=
  let (n, d) := shifted x.mantissa y.mantissa (x.exponent - y.exponent)
  ofRatio n d

def powerOfTen (n : Nat) : Binary64 := (ofRatio (Nat.pow 10 n) 1).getD zero

/-- Division by a power of ten, in steps no larger than 308 places, until nothing is left. -/
def shrink (x : Binary64) (places : Nat) : Option Binary64 :=
  if x.mantissa = 0 then some x
  else if places ≤ 308 then x.div (powerOfTen places)
  else (x.div (powerOfTen 308)).bind (shrink · (places - 308))
termination_by places
decreasing_by omega

/-- `significand * 10 ^ exponent`, rounded once for the significand and once for each step. -/
def ofDecimal (significand : Nat) (exponent : Int) : Option Binary64 := do
  let x ← ofRatio significand 1
  if exponent < 0 then x.shrink exponent.natAbs
  else if x.mantissa = 0 then some x
  else if exponent ≤ 308 then x.mul (powerOfTen exponent.toNat)
  else none

end Binary64
end Ldap.Decimal
