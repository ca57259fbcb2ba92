import Ldap.Yaml.Character
import Ldap.Yaml.Collections

/-! Plain scalars and scalars between quotes, as far as they are read: their gaps, their escapes
and the place where they belong. -/
namespace Ldap.Yaml

/-- Blanks and line breaks within a scalar, of which only what follows tells what they stand for. -/
inductive Gap where
  | blanks (s : List Char)
  | breaks (first : Option Char) (others : List Char)

namespace Gap

def add (c : Char) : Gap → Gap
  | .blanks s => if isBreak c then .breaks (some c) [] else .blanks (s ++ [c])
  | .breaks first others =>
    if isBreak c then .breaks first (others ++ [c]) else .breaks first others

def hasBreak : Gap → Bool
  | .blanks _ => false
  | .breaks .. => true

def isEmpty : Gap → Bool
  | .blanks s => s.isEmpty
  | .breaks .. => false

/-- A single line break is a space; of several the first one is dropped. -/
def text : Gap → List Char
  | .blanks s => s
  | .breaks (some '\n') [] => [' ']
  | .breaks (some '\n') others => others
  | .breaks first others => first.toList ++ others

end Gap

inductive Style where
  | plain
  | single
  | double

/-- A scalar that is being read: its text so far with the last character first, and what came
after. -/
structure Draft where
  style : Style
  origin : Origin
  frames : List Frame
  text : List Char := []
  gap : Gap := .blanks []

namespace Draft

def add (cs : List Char) (d : Draft) : Draft :=
  { d with text := cs.reverse ++ (d.gap.text.reverse ++ d.text), gap := .blanks [] }

def indent (d : Draft) : Nat := d.origin.indent (Yaml.indent d.frames)

end Draft

def escaped? : Char → Option Char
  | '0' => some '\x00'
  | 'a' => some '\x07'
  | 'b' => some '\x08'
  | 't' | '\t' => some '\t'
  | 'n' => some '\n'
  | 'v' => some '\x0b'
  | 'f' => some '\x0c'
  | 'r' => some '\r'
  | 'e' => some '\x1b'
  | ' ' => some ' '
  | '"' => some '"'
  | '/' => some '/'
  | '\\' => some '\\'
  | 'N' => some '\x85'
  | '_' => some '\xa0'
  | 'L' => some '\u2028'
  | 'P' => some '\u2029'
  | _ => none

def coded? (digits : Nat) (rest : List Char) : Option Char := do
  let values ← (rest.take digits).mapM Text.hexDigit?
  let code := values.foldl (fun n digit => 16 * n + digit) 0
  if values.length = digits ∧ code.isValidChar then some (.ofNat code) else none

end Ldap.Yaml
