import Ldap.Yaml.Block
import Ldap.Yaml.Scalar
import Ldap.Yaml.Tag

/-! YAML texts: block and flow collections, scalars in every style, properties, references,
comments, and the directives and marks around one document. The text is read character by
character; what the characters so far mean is a `Scan`. -/
namespace Ldap.Yaml

def mark? (c : Char) (rest : List Char) : Option Token :=
  match c, rest with
  | '-', '-' :: '-' :: rest => if isGapNext rest then some .documentStart else none
  | '.', '.' :: '.' :: rest => if isGapNext rest then some .documentEnd else none
  | _, _ => none

inductive Mode where
  | between
  | comment
  | scalar (draft : Draft)

structure Scan where
  line : Nat := 1
  column : Nat := 1
  offset : Nat := 0
  /-- A key may begin at the start of a line of a block collection and directly behind a mark in
  front of a node. -/
  allowsKey : Bool := true
  /-- The characters ahead that are part of what is read already. -/
  skip : Nat := 0
  mode : Mode := .between
  pending : Pending := .start
  /-- The number of each anchor: how many names there were before it. -/
  anchors : List (String × Nat) := []
  handles : Handles := []
  versioned : Bool := false

namespace Scan

def place (s : Scan) : Place := ⟨s.line, s.column, s.offset, s.allowsKey⟩

def inFlow (s : Scan) : Bool := s.pending.inFlow

def token (t : Token) (allowsKey : Bool) (s : Scan) : Option Scan :=
  (s.pending.next s.place t).map fun pending => { s with pending, allowsKey }

def write (d : Draft) (s : Scan) : Scan := { s with mode := .scalar d }

def draft (style : Style) (s : Scan) : Option Draft :=
  (s.pending.place s.place).map fun (origin, frames) => { style, origin, frames }

/-- The scalar is whole. Line breaks behind a plain scalar are read already. -/
def finish (node : Yaml) (d : Draft) (s : Scan) : Scan :=
  { s with mode := .between, pending := .holds node d.origin d.frames, allowsKey := d.gap.hasBreak }

def finishPlain (d : Draft) (s : Scan) : Scan := s.finish (.plain (.ofList d.text.reverse)) d

def finishQuoted (d : Draft) (s : Scan) : Scan :=
  let d := d.add []
  s.finish (.quoted (.ofList d.text.reverse)) d

def isMarked (c : Char) (rest : List Char) (s : Scan) : Bool :=
  s.column == 1 && (mark? c rest).isSome

/-- A plain scalar goes on over the lines to the right of its collection. It ends before a
comment, a colon and, in a flow collection, a mark of the collection. -/
def endsPlain (d : Draft) (c : Char) (rest : List Char) (s : Scan) : Bool :=
  let inFlow := isFlow d.frames
  !isBlank c &&
    ((d.gap.hasBreak && !inFlow && s.column ≤ d.indent) || s.isMarked c rest ||
      (c == '#' && !d.gap.isEmpty) ||
      (c == ':' && isGapNext rest) || (inFlow && isFlowMark c))

/-- In a flow collection a colon may not stand directly before a mark of the collection. -/
def isBadColon (d : Draft) (c : Char) (rest : List Char) : Bool :=
  isFlow d.frames && c == ':' && rest.head?.any fun next => isFlowMark next || next == '?'

def isBadTab (d : Draft) (c : Char) (s : Scan) : Bool :=
  c == '\t' && d.gap.hasBreak && s.column ≤ d.indent

def plain (d : Draft) (c : Char) (rest : List Char) (s : Scan) : Option Scan :=
  if isBadTab d c s || isBadColon d c rest then none
  else if isBlank c then some (s.write { d with gap := d.gap.add c })
  else some (s.write (d.add [c]))

def single (d : Draft) (c : Char) (rest : List Char) (s : Scan) : Option Scan :=
  if isBlank c then some (s.write { d with gap := d.gap.add c })
  else if s.isMarked c rest then none
  else if c == '\'' then
    if rest.head? == some '\'' then some { s.write (d.add [c]) with skip := 1 }
    else some (s.finishQuoted d)
  else some (s.write (d.add [c]))

def escape (d : Draft) (rest : List Char) (s : Scan) : Option Scan :=
  let coded (digits : Nat) (rest : List Char) : Option Scan :=
    (coded? digits rest).map fun c => { s.write (d.add [c]) with skip := digits + 1 }
  match rest with
  | [] => none
  | 'x' :: rest => coded 2 rest
  | 'u' :: rest => coded 4 rest
  | 'U' :: rest => coded 8 rest
  | c :: _ =>
    if isBreak c then some { s.write { d.add [] with gap := .breaks none [] } with skip := 1 }
    else (escaped? c).map fun c => { s.write (d.add [c]) with skip := 1 }

def double (d : Draft) (c : Char) (rest : List Char) (s : Scan) : Option Scan :=
  if isBlank c then some (s.write { d with gap := d.gap.add c })
  else if s.isMarked c rest then none
  else if c == '"' then some (s.finishQuoted d)
  else if c == '\\' then s.escape d rest
  else some (s.write (d.add [c]))

/-- A scalar begins: a quote is dropped, and the first character of a plain one is its own. -/
def scalar (c : Char) (rest : List Char) (s : Scan) : Option Scan :=
  if c == '"' then (s.draft .double).map s.write
  else if c == '\'' then (s.draft .single).map s.write
  else do s.plain (← s.draft .plain) c rest

def block (folded : Bool) (rest : List Char) (s : Scan) : Option Scan := do
  let (o, frames) ← s.pending.blockPlace s.place
  let (text, skip) ← Block.read? folded (indent frames) rest
  let node : Yaml := if folded then .quoted (.ofList text) else .literal (.ofList text)
  return { s with pending := .holds node o frames, allowsKey := true, skip }

def mark (properties : Properties) (skip : Nat) (s : Scan) : Option Scan :=
  (s.pending.mark s.place properties).map fun pending =>
    { s with pending, allowsKey := false, skip }

def name? (rest : List Char) : Option String :=
  let name := rest.takeWhile isWord
  let next := rest.drop name.length
  let ends := isGapNext next || next.head?.any "?:,]\x7d%@\x60".toList.contains
  if name ≠ [] && ends then some (.ofList name) else none

def anchor (rest : List Char) (s : Scan) : Option Scan := do
  let name ← name? rest
  let anchors := (name, s.anchors.length) :: s.anchors.filter (·.1 ≠ name)
  { s with anchors }.mark { anchor := s.anchors.length } name.length

def reference (rest : List Char) (s : Scan) : Option Scan := do
  let name ← name? rest
  let node := Yaml.reference (← s.anchors.lookup name)
  let (o, frames) ← s.pending.place s.place
  return { s with pending := .holds node o frames, allowsKey := false, skip := name.length }

def tag (rest : List Char) (s : Scan) : Option Scan := do
  let (tag, after) ← Tag.read? (s.handles ++ standardHandles) rest
  if Tag.endsBefore s.inFlow after then s.mark { tag } (rest.length - after.length) else none

/-- Directives stand before the document. There is one version at most, and one meaning of a
handle. -/
def directive (rest : List Char) (s : Scan) : Option Scan := do
  let (directive, after) ← Directive.read? rest
  let s ← match s.pending with
    | .start | .prologue =>
      some { s with pending := .prologue, allowsKey := false, skip := rest.length - after.length }
    | _ => none
  match directive with
  | .version major minor =>
    if !s.versioned && major == 1 && (minor == 1 || minor == 2) then
      some { s with versioned := true }
    else none
  | .handle name expansion =>
    if (s.handles.lookup name).isNone then some { s with handles := (name, expansion) :: s.handles }
    else none

def between (c : Char) (rest : List Char) (s : Scan) : Option Scan :=
  let flowOrGap := s.inFlow || isGapNext rest
  if c == ' ' then some s
  else if c == '\t' then if s.inFlow || !s.allowsKey then some s else none
  else if isBreak c then some { s with allowsKey := s.allowsKey || !s.inFlow }
  else if c == '#' then some { s with mode := .comment }
  else if c == '\ufeff' && s.column == 1 then some s
  else if c == '%' && s.column == 1 then s.directive rest
  else if s.isMarked c rest then do
    let s ← s.token (← mark? c rest) false
    return { s with skip := 2 }
  else if c == '[' then s.token .openSequence true
  else if c == ']' then s.token .closeSequence false
  else if c == '\x7b' then s.token .openMapping true
  else if c == '\x7d' then s.token .closeMapping false
  else if c == ',' then s.token .comma true
  else if c == '-' && isGapNext rest then s.token .dash true
  else if c == '?' && flowOrGap then s.token .question !s.inFlow
  else if c == ':' && flowOrGap then s.token .colon (!s.inFlow && !s.pending.isKey s.place)
  else if c == '&' then s.anchor rest
  else if c == '*' then s.reference rest
  else if c == '!' then s.tag rest
  else if (c == '|' || c == '>') && !s.inFlow then s.block (c == '>') rest
  else if "|>%@\x60".toList.contains c then none
  else s.scalar c rest

def step (c : Char) (rest : List Char) (s : Scan) : Option Scan :=
  match s.mode with
  | .between => s.between c rest
  | .comment => if isBreak c then { s with mode := .between }.between c rest else some s
  | .scalar d =>
    match d.style with
    | .plain => if s.endsPlain d c rest then (s.finishPlain d).between c rest else s.plain d c rest
    | .single => s.single d c rest
    | .double => s.double d c rest

def advance (c : Char) (s : Scan) : Scan :=
  if isBreak c then { s with line := s.line + 1, column := 1, offset := 0 }
  else { s with column := s.column + 1, offset := s.offset + c.utf8Size }

def run : List Char → Scan → Option Scan
  | [], s => some s
  | c :: rest, s =>
    if s.skip = 0 then do run rest ((← s.step c rest).advance c)
    else run rest ({ s with skip := s.skip - 1 }.advance c)

def root? (s : Scan) : Option Yaml :=
  match s.mode with
  | .scalar d =>
    match d.style with
    | .plain => (s.finishPlain d).pending.root?
    | _ => none
  | _ => s.pending.root?

end Scan

def ofText? (s : String) : Option Document := do
  if s.toList.all isAllowed then (← Scan.run (unifyBreaks s.toList) {}).root?.map .ofRoot else none

end Ldap.Yaml
