/-! Identifier octets. A tag is one octet; the low five bits 31 announce a longer form, which is
not read. -/
namespace Ldap.Ber

abbrev Tag := UInt8

namespace Tag

def boolean : Tag := 0x01
def octetString : Tag := 0x04
def enumerated : Tag := 0x0A
def sequence : Tag := 0x30

def context (n : UInt8) : Tag := 0x80 ||| (n &&& 0x1F)

def contextConstructed (n : UInt8) : Tag := 0xA0 ||| (n &&& 0x1F)

def isMultiOctet (t : Tag) : Bool := t &&& 0x1F == 0x1F

def text (t : Tag) : String :=
  .ofList ['0', 'x', (Nat.digitChar (t.toNat / 16)).toUpper, (Nat.digitChar (t.toNat % 16)).toUpper]

end Tag
end Ldap.Ber
