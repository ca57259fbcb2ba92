import Ldap.Json.Basic
import Ldap.Text.Hex

/-! The two ways to write a JSON value: compact, without white space, and pretty, with one member
a line and an indent of two spaces a level. -/
namespace Ldap.Json

def escapeChar (c : Char) : List Char :=
  if c = '"' then ['\\', '"']
  else if c = '\\' then ['\\', '\\']
  else if c = '\x08' then ['\\', 'b']
  else if c = '\x0c' then ['\\', 'f']
  else if c = '\n' then ['\\', 'n']
  else if c = '\r' then ['\\', 'r']
  else if c = '\t' then ['\\', 't']
  else if c.toNat < 0x20 then '\\' :: 'u' :: '0' :: '0' :: Text.hexPair (.ofNat c.toNat)
  else [c]

def quoted (s : String) : List Char := '"' :: (s.toList.flatMap escapeChar ++ ['"'])

def boolText (b : Bool) : List Char := if b then ['t', 'r', 'u', 'e'] else ['f', 'a', 'l', 's', 'e']

mutual

def compact : Json → List Char
  | .null => ['n', 'u', 'l', 'l']
  | .bool b => boolText b
  | .number n => n.text
  | .string s => quoted s
  | .array [] => ['[', ']']
  | .array (v :: vs) => '[' :: (compact v ++ (compactItems vs ++ [']']))
  | .object [] => ['\x7b', '\x7d']
  | .object ((k, v) :: fs) =>
    '\x7b' :: (quoted k ++ ':' :: (compact v ++ (compactFields fs ++ ['\x7d'])))

def compactItems : List Json → List Char
  | [] => []
  | v :: vs => ',' :: (compact v ++ compactItems vs)

def compactFields : List (String × Json) → List Char
  | [] => []
  | (k, v) :: fs => ',' :: (quoted k ++ ':' :: (compact v ++ compactFields fs))

end

def newLine (level : Nat) : List Char := '\n' :: List.replicate (2 * level) ' '

mutual

def pretty (level : Nat) : Json → List Char
  | .null => ['n', 'u', 'l', 'l']
  | .bool b => boolText b
  | .number n => n.text
  | .string s => quoted s
  | .array [] => ['[', ']']
  | .array (v :: vs) =>
    '[' ::
      (newLine (level + 1) ++
        (pretty (level + 1) v ++ (prettyItems (level + 1) vs ++ (newLine level ++ [']']))))
  | .object [] => ['\x7b', '\x7d']
  | .object ((k, v) :: fs) =>
    '\x7b' :: (newLine (level + 1) ++ (quoted k ++ (':' :: ' ' :: (pretty (level + 1) v ++
      (prettyFields (level + 1) fs ++ (newLine level ++ ['\x7d']))))))

def prettyItems (level : Nat) : List Json → List Char
  | [] => []
  | v :: vs => ',' :: (newLine level ++ (pretty level v ++ prettyItems level vs))

def prettyFields (level : Nat) : List (String × Json) → List Char
  | [] => []
  | (k, v) :: fs =>
    ',' ::
      (newLine level ++ (quoted k ++ (':' :: ' ' :: (pretty level v ++ prettyFields level fs))))

end

def toCompact (v : Json) : String := .ofList (compact v)

def toPretty (v : Json) : String := .ofList (pretty 0 v)

end Ldap.Json
