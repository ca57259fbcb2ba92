import Ldap.Decimal.Shortest

/-! JSON numbers. A literal without fraction and exponent that fits 64 bits is an integer; every
other literal, and `-0`, is a binary number. Reading keeps the leading digits that fit 64 bits. -/
namespace Ldap.Json
open Decimal

inductive Number where
  | int (n : Int)
  | float (negative : Bool) (magnitude : Binary64)
  deriving Repr, DecidableEq

structure Literal where
  negative : Bool
  whole : List Char
  fraction : Option (List Char)
  exponent : Option Int

/-- Appends digits as long as the number stays below 2 ^ 64, and gives those that were left. -/
def absorb (n : Nat) : List Char → Nat × List Char
  | [] => (n, [])
  | c :: cs =>
    let m := 10 * n + (c.toNat - 48)
    if m < Nat.pow 2 64 then absorb m cs else (n, c :: cs)

namespace Number

def ofLiteral (l : Literal) : Option Number :=
  let (significand, left) := absorb 0 l.whole
  if left = [] ∧ l.fraction = none ∧ l.exponent = none then
    if l.negative = false then some (.int significand)
    else if significand = 0 ∨ Nat.pow 2 63 < significand then
      (Binary64.ofRatio significand 1).map (.float true)
    else some (.int (-significand))
  else
    let fraction := l.fraction.getD []
    let (significand, dropped) := absorb significand fraction
    let exponent :=
      (left.length : Int) - (fraction.length - dropped.length : Nat) + l.exponent.getD 0
    (Binary64.ofDecimal significand exponent).map (.float l.negative)

/-- Positional from `1e-5` up to, but not including, `1e+16`; with a signed exponent elsewhere. -/
def layout (d : Digits) : List Char :=
  let ds := Nat.toDigits 10 d.digits
  let point := (ds.length : Int) + d.exponent
  if 0 ≤ d.exponent ∧ point ≤ 16 then ds ++ List.replicate d.exponent.toNat '0' ++ ['.', '0']
  else if 0 < point ∧ point ≤ 16 then ds.take point.toNat ++ '.' :: ds.drop point.toNat
  else if -5 < point ∧ point ≤ 0 then '0' :: '.' :: List.replicate (-point).toNat '0' ++ ds
  else
    let mantissa := match ds with
      | [] => []
      | [c] => [c]
      | c :: cs => c :: '.' :: cs
    let sign := if point < 1 then '-' else '+'
    mantissa ++ 'e' :: sign :: Nat.toDigits 10 (point - 1).natAbs

def strip (d : Digits) : Digits :=
  if d.digits ≠ 0 ∧ d.digits % 10 = 0 then strip ⟨d.digits / 10, d.exponent + 1⟩ else d
termination_by d.digits
decreasing_by omega

def text : Number → List Char
  | .int n => (toString n).toList
  | .float negative x =>
    let magnitude := if x.mantissa = 0 then ['0', '.', '0'] else layout (strip x.shortest)
    if negative then '-' :: magnitude else magnitude

end Number
end Ldap.Json
