import Ldap.Octets
import Ldap.Yaml.Character

/-! Tags and directives. A tag is written in full, or with a handle that a directive or the
standard table expands. An octet of a tag may be escaped. -/
namespace Ldap.Yaml

abbrev Handles := List (String × Octets)

def standardHandles : Handles := [("!", utf8 "!"), ("!!", utf8 "tag:yaml.org,2002:")]

namespace Tag

/-- Between angle brackets a tag may also hold marks of flow sequences. -/
def isLetter (full : Bool) (c : Char) : Bool :=
  isWord c || ";/?:@&=+$.!~*'()".toList.contains c || (full && (c == ',' || c == '[' || c == ']'))

def followers? (n : Nat) : Option Nat :=
  if n < 0x80 then some 0
  else if n < 0xC0 then none
  else if n < 0xE0 then some 1
  else if n < 0xF0 then some 2
  else if n < 0xF8 then some 3
  else none

/-- The letters of a tag, and what follows them; `owed` octets of a character that was begun are
to come. -/
def letters? (full : Bool) (owed : Nat) : List Char → Option (Octets × List Char)
  | [] => if owed = 0 then some ([], []) else none
  | '%' :: a :: b :: rest => do
    let n := 16 * (← Text.hexDigit? a) + (← Text.hexDigit? b)
    let owed ←
      if owed = 0 then followers? n
      else if 0x80 ≤ n ∧ n < 0xC0 then some (owed - 1) else none
    let (octets, rest) ← letters? full owed rest
    return (.ofNat n :: octets, rest)
  | c :: rest =>
    if owed ≠ 0 ∨ c = '%' then none
    else if isLetter full c then do
      let (octets, rest) ← letters? full 0 rest
      return (.ofNat c.toNat :: octets, rest)
    else some ([], c :: rest)

def name? (full : Bool) (text : List Char) : Option (Octets × List Char) := do
  let (octets, rest) ← letters? full 0 text
  if octets = [] then none else return (octets.takeWhile (· ≠ 0), rest)

def read? (handles : Handles) (text : List Char) : Option (Octets × List Char) :=
  match text with
  | '<' :: text => do
    match ← name? true text with
    | (tag, '>' :: rest) => some (tag, rest)
    | _ => none
  | text => do
    let word := text.takeWhile isWord
    match text.drop word.length with
    | '!' :: text =>
      let expansion ← handles.lookup (.ofList ('!' :: word ++ ['!']))
      let (name, rest) ← name? false text
      return (expansion ++ name, rest)
    | _ =>
      let (octets, rest) ← letters? false 0 text
      let name := octets.takeWhile (· ≠ 0)
      if name = [] then return (utf8 "!", rest) else return ((← handles.lookup "!") ++ name, rest)

def endsBefore (inFlow : Bool) (rest : List Char) : Bool :=
  isGapNext rest || (inFlow && rest.head? == some ',')

end Tag

inductive Directive where
  | version (major minor : Nat)
  | handle (name : String) (expansion : Octets)

namespace Directive

def number? (text : List Char) : Option (Nat × List Char) :=
  let digits := text.takeWhile (·.isDigit)
  if digits = [] ∨ 9 < digits.length then none
  else some (digits.foldl (fun n c => 10 * n + (c.toNat - 48)) 0, text.drop digits.length)

def version? (text : List Char) : Option (Directive × List Char) := do
  match ← number? text with
  | (major, '.' :: text) => (number? text).map fun (minor, rest) => (.version major minor, rest)
  | _ => none

def handle? (text : List Char) : Option (Directive × List Char) := do
  match text with
  | '!' :: text =>
    let word := text.takeWhile isWord
    let (name, text) ← match text.drop word.length with
      | '!' :: text => some (.ofList ('!' :: word ++ ['!']), text)
      | text => if word = [] then some ("!", text) else none
    if text.head?.any isSpace then
      let (expansion, rest) ← Tag.name? true (text.dropWhile isSpace)
      if isGapNext rest then return (.handle name expansion, rest) else none
    else none
  | _ => none

def read? (text : List Char) : Option (Directive × List Char) := do
  let word := text.takeWhile isWord
  let value := text.drop word.length
  if isGapNext value then
    let value := value.dropWhile isSpace
    let (directive, rest) ←
      if word = "YAML".toList then version? value
      else if word = "TAG".toList then handle? value else none
    return (directive, ← endLine? rest)
  else none

end Directive
end Ldap.Yaml
