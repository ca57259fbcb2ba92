import Ldap.Yaml.Character

/-! Block scalars: the lines that are indented below a mark, kept as they are or folded. -/
namespace Ldap.Yaml.Block

/-- Which of the line breaks at the end belong to the text: the first, none or all. -/
inductive Ending where
  | clip
  | strip
  | keep

structure Header where
  ending : Ending
  indent : Option Nat

def ending? : List Char → Option (Ending × List Char)
  | '+' :: rest => some (.keep, rest)
  | '-' :: rest => some (.strip, rest)
  | _ => none

def indent? : List Char → Option (Nat × List Char)
  | c :: rest => if c.isDigit then some (c.toNat - 48, rest) else none
  | [] => none

def indicators (rest : List Char) : Header × List Char :=
  match ending? rest with
  | some (ending, rest) =>
    match indent? rest with
    | some (n, rest) => (⟨ending, n⟩, rest)
    | none => (⟨ending, none⟩, rest)
  | none =>
    match indent? rest with
    | some (n, rest) =>
      match ending? rest with
      | some (ending, rest) => (⟨ending, n⟩, rest)
      | none => (⟨.clip, n⟩, rest)
    | none => (⟨.clip, none⟩, rest)

def header? (rest : List Char) : Option (Header × List Char) := do
  let (header, rest) := indicators rest
  if header.indent = some 0 then none else return (header, ← endLine? rest)

structure Line where
  content : List Char
  stop : Option Char

def lines : List Char → List Line
  | [] => [⟨[], none⟩]
  | c :: rest =>
    if isBreak c then ⟨[], some c⟩ :: lines rest
    else match lines rest with
      | line :: others => { line with content := c :: line.content } :: others
      | [] => []

namespace Line

def margin (l : Line) : Nat := (l.content.takeWhile (· == ' ')).length

def length (l : Line) : Nat := l.content.length + l.stop.toList.length

def isEmpty (indent : Option Nat) (l : Line) : Bool :=
  l.stop.isSome && l.margin == l.content.length && indent.all (l.margin ≤ ·)

def isBadTab (indent : Option Nat) (l : Line) : Bool :=
  l.content[l.margin]? == some '\t' && indent.all (l.margin < ·)

end Line

def size : List Line → Nat
  | [] => 0
  | line :: lines => line.length + size lines

/-- The indentation is that of the first line with content, or of a longer line before it. -/
def indentation? (least : Nat) (lines : List Line) : Option Nat :=
  let first := lines.dropWhile (·.isEmpty none)
  if first.head?.any (·.isBadTab none) then none
  else some (((lines.takeWhile (·.isEmpty none) ++ first.take 1).map (·.margin)).foldl max
    (max 1 least))

/-- A text so far, with the break of its last line and those of the empty lines after it. -/
structure Draft where
  text : List Char := []
  stop : Option Char := none
  empties : List Char := []
  indented : Bool := false

namespace Draft

def add (folded : Bool) (content : List Char) (stop : Option Char) (d : Draft) : Draft :=
  let indented := content.head?.any isSpace
  let joint :=
    if folded ∧ d.stop = some '\n' ∧ d.indented = false ∧ indented = false then
      if d.empties = [] then [' '] else d.empties
    else d.stop.toList ++ d.empties
  { text := d.text ++ joint ++ content, stop, indented }

def finish (ending : Ending) (d : Draft) : List Char :=
  match ending with
  | .strip => d.text
  | .clip => d.text ++ d.stop.toList
  | .keep => d.text ++ d.stop.toList ++ d.empties

end Draft

def body? (folded : Bool) (indent : Nat) (d : Draft) : List Line → Option (Draft × List Line)
  | [] => some (d, [])
  | line :: lines =>
    if line.isEmpty (some indent) then
      body? folded indent { d with empties := d.empties ++ line.stop.toList } lines
    else if line.isBadTab (some indent) then none
    else if indent ≤ line.margin ∧ indent < line.content.length then
      body? folded indent (d.add folded (line.content.drop indent) line.stop) lines
    else some (d, line :: lines)

/-- The text of a block behind its mark and the number of characters that it takes. The collection
around it stands at the column `outer`, zero where there is none. -/
def read? (folded : Bool) (outer : Nat) (rest : List Char) : Option (List Char × Nat) := do
  let (header, below) ← header? rest
  let lines := lines below
  let indent ← match header.indent with
    | some n => some (outer - 1 + n)
    | none => indentation? outer lines
  let (draft, left) ← body? folded indent {} lines
  return (draft.finish header.ending, rest.length - size left)

end Ldap.Yaml.Block
