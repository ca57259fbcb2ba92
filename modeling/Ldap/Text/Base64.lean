import Ldap.Octets

/-! Base64 with the standard alphabet. Three octets are four symbols; a last group of one or two
octets is filled up with `=`. `decode?` takes the canonical spelling only: the filling is
required, and so are zero bits where a short group leaves bits over. -/
namespace Ldap.Text.Base64

def symbol (n : Nat) : Char :=
  Char.ofNat (if n < 26 then 65 + n else if n < 52 then 71 + n else if n < 62 then n - 4
    else if n = 62 then 43 else 47)

def value? (c : Char) : Option Nat :=
  let n := c.toNat
  if 65 ≤ n ∧ n ≤ 90 then some (n - 65)
  else if 97 ≤ n ∧ n ≤ 122 then some (n - 71)
  else if 48 ≤ n ∧ n ≤ 57 then some (n + 4)
  else if n = 43 then some 62
  else if n = 47 then some 63
  else none

def encode : Octets → List Char
  | [] => []
  | [a] => [symbol (a.toNat / 4), symbol (a.toNat % 4 * 16), '=', '=']
  | [a, b] =>
    [symbol (a.toNat / 4), symbol (a.toNat % 4 * 16 + b.toNat / 16), symbol (b.toNat % 16 * 4), '=']
  | a :: b :: c :: rest =>
    symbol (a.toNat / 4) :: symbol (a.toNat % 4 * 16 + b.toNat / 16) ::
      symbol (b.toNat % 16 * 4 + c.toNat / 64) :: symbol (c.toNat % 64) :: encode rest

def one? (x y : Nat) : Option Octets :=
  if y % 16 = 0 then some [.ofNat (x * 4 + y / 16)] else none

def two? (x y z : Nat) : Option Octets :=
  if z % 4 = 0 then some [.ofNat (x * 4 + y / 16), .ofNat (y % 16 * 16 + z / 4)] else none

def decode? : List Char → Option Octets
  | [] => some []
  | [a, b, '=', '='] => do one? (← value? a) (← value? b)
  | [a, b, c, '='] => do two? (← value? a) (← value? b) (← value? c)
  | a :: b :: c :: d :: rest => do
    let x ← value? a
    let y ← value? b
    let z ← value? c
    let w ← value? d
    let octets ← decode? rest
    return .ofNat (x * 4 + y / 16) :: .ofNat (y % 16 * 16 + z / 4) :: .ofNat (z % 4 * 64 + w) ::
      octets
  | _ => none

end Ldap.Text.Base64
