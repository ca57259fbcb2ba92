import Ldap.Ber.Tag

/-! Why an octet string is not the element that was asked for. -/
namespace Ldap.Ber

inductive SingleOctet where
  | boolean
  | enumerated
  deriving Repr, DecidableEq

def SingleOctet.name : SingleOctet → String
  | .boolean => "Boolean"
  | .enumerated => "Enumerated"

inductive Error where
  | truncated (needed remaining : Nat)
  | indefiniteLength
  | lengthTooLarge (octets : Nat)
  | highTagNumber (tag : Tag)
  | unexpectedTag (expected actual : Tag)
  | invalidLength (value : SingleOctet) (length : Nat)
  | invalidUtf8
  | trailingOctets (count : Nat)
  deriving Repr, DecidableEq

def Error.message : Error → String
  | .truncated needed remaining => s!"BER truncated: need {needed} bytes, {remaining} remaining"
  | .indefiniteLength => "indefinite length not supported"
  | .lengthTooLarge octets => s!"length too large: {octets} bytes"
  | .highTagNumber tag => s!"multi-byte tag numbers not supported: {tag.text}"
  | .unexpectedTag expected actual => s!"expected tag {expected.text}, got {actual.text}"
  | .invalidLength value length => s!"{value.name} value must be 1 byte, got {length}"
  | .invalidUtf8 => "invalid UTF-8 string"
  | .trailingOctets count => s!"{count} trailing bytes after element"

end Ldap.Ber
