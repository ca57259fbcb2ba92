import Ldap.Text.Printable

/-! Characters and texts between quotes for a reader's eye. A backslash, the quote itself and what
has no printed form are written as escapes. -/
namespace Ldap.Text

def escapeBehind (quote c : Char) : List Char :=
  if c = '\x00' then ['\\', '0']
  else if c = '\t' then ['\\', 't']
  else if c = '\n' then ['\\', 'n']
  else if c = '\r' then ['\\', 'r']
  else if c = '\\' ∨ c = quote then ['\\', c]
  else if isPrintable c then [c]
  else ['\\', 'u', '\x7b'] ++ Nat.toDigits 16 c.toNat ++ ['\x7d']

def quote (mark : Char) (s : List Char) : String :=
  .ofList (mark :: (s.flatMap (escapeBehind mark) ++ [mark]))

end Ldap.Text
