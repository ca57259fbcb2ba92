import Ldap.Decimal.Binary64

/-! The fewest decimal digits that read back as a given number: of all decimals between the
midpoints to its neighbours, one on the coarsest decimal grid, and on that grid the nearest, with
ties to even. -/
namespace Ldap.Decimal

structure Digits where
  digits : Nat
  exponent : Int
  deriving Repr, DecidableEq

/-- The distance to the midpoint below, in quarters of the last bit; it is halved at the foot of a
binade. -/
def Binary64.below (x : Binary64) : Nat :=
  if x.mantissa = Nat.pow 2 52 ∧ -1074 < x.exponent then 1 else 2

/-- Whether `d * 10 ^ k` reads back as `x`. Ends of the interval count for an even mantissa. -/
def Binary64.readsBack (x : Binary64) (d : Nat) (k : Int) : Bool :=
  let (dn, dd) := (d * Nat.pow 10 k.toNat, Nat.pow 10 (-k).toNat)
  let (n, m) := Binary64.shifted dn dd (2 - x.exponent)
  let low := (4 * x.mantissa - x.below) * m
  let high := (4 * x.mantissa + 2) * m
  if x.mantissa % 2 = 0 then low ≤ n && n ≤ high else low < n && n < high

def Binary64.onGrid? (x : Binary64) (k : Int) : Option Digits :=
  let (n, m) := Binary64.shifted x.mantissa 1 x.exponent
  let (n, m) := (n * Nat.pow 10 (-k).toNat, m * Nat.pow 10 k.toNat)
  let down := n / m
  let candidates := if nearest n m = down then [down, down + 1] else [down + 1, down]
  (candidates.find? (x.readsBack · k)).map (⟨·, k⟩)

def Binary64.decade (x : Binary64) : Int :=
  let (n, m) := Binary64.shifted x.mantissa 1 x.exponent
  (Nat.toDigits 10 (n * Nat.pow 10 340 / m)).length - 341

def Binary64.shortest (x : Binary64) : Digits :=
  ((List.range 17).findSome? fun (i : Nat) =>
    x.onGrid? (x.decade - i)).getD ⟨x.mantissa, x.exponent⟩

end Ldap.Decimal
