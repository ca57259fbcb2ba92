import Ldap.Octets

/-! Length octets. A length below 128 is its own octet; a larger one is announced by the number of
its base-256 digits, which follow with the most significant first. -/
namespace Ldap.Ber.Length

def digits (n : Nat) : Octets :=
  if n = 0 then [] else digits (n / 256) ++ [.ofNat n]
termination_by n
decreasing_by omega

def encode (n : Nat) : Octets :=
  if n < 128 then [.ofNat n] else (0x80 ||| .ofNat (digits n).length) :: digits n

def word (s : Octets) : UInt32 :=
  s.foldl (fun acc b => (acc <<< 8) ||| b.toUInt32) 0

end Ldap.Ber.Length
