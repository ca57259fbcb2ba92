import Ldap.Text.Hex

/-! Octet strings, the UTF-8 view of text as octets, and hexadecimal spelling.
`ofHex` names the first fault of a spelling by its octet position. -/
namespace Ldap

abbrev Octets := List UInt8

def utf8 (s : String) : Octets := s.toUTF8.data.toList

namespace Octets

def text? (s : Octets) : Option String := String.fromUTF8? ⟨s.toArray⟩

def hex (s : Octets) : String := .ofList (s.flatMap Text.hexPair)

inductive HexError where
  | oddLength
  | invalidDigit (octet : UInt8) (position : Nat)
  deriving Repr, DecidableEq

def hexDigit (position : Nat) (b : UInt8) : Except HexError Nat :=
  match Text.hexDigit? (Char.ofNat b.toNat) with
  | some n => .ok n
  | none => .error (.invalidDigit b position)

def hexPairs (position : Nat) : Octets → Except HexError Octets
  | a :: b :: rest => do
    let high ← hexDigit position a
    let low ← hexDigit (position + 1) b
    let octets ← hexPairs (position + 2) rest
    return .ofNat (16 * high + low) :: octets
  | _ => .ok []

def ofHex (spelling : String) : Except HexError Octets :=
  let digits := utf8 spelling
  if digits.length % 2 = 0 then hexPairs 0 digits else .error .oddLength

end Octets

@[simp] theorem text?_utf8 (s : String) : (utf8 s).text? = some s := by
  obtain ⟨⟨a⟩, valid⟩ := s
  simp [utf8, Octets.text?, String.fromUTF8?, String.fromUTF8, valid]

theorem utf8_of_text? {o : Octets} {s : String} (h : o.text? = some s) : utf8 s = o := by
  unfold Octets.text? String.fromUTF8? at h
  split at h
  · cases h; simp [utf8, String.fromUTF8]
  · cases h

end Ldap
