import Ldap.Yaml.Basic

/-! The collections around a place of a YAML document. A block collection holds the nodes that
stand to the right of its column; a flow collection stands between brackets, and columns do not
count in it. -/
namespace Ldap.Yaml

/-- Where a token begins, counted from one, with the octets before it on its line, and whether a
node there may be a key. -/
structure Place where
  line : Nat
  column : Nat
  offset : Nat
  allowsKey : Bool

/-- What a colon behind a block node makes of it. -/
inductive KeyRole where
  /-- A node after a colon on the same line is a value and never a key. -/
  | never
  | first
  | next (fields : List (Yaml × Yaml))

structure Origin where
  line : Nat
  column : Nat
  offset : Nat
  role : KeyRole
  properties : Properties := {}

def Place.origin (p : Place) (role : KeyRole) : Origin := ⟨p.line, p.column, p.offset, role, {}⟩

/-- An open collection that waits for a node, with what it holds so far, the last first. A key
stands behind a question mark; in a flow sequence it begins a mapping of one pair. -/
inductive Frame where
  | entry (column : Nat) (items : List Yaml)
  | key (column : Nat) (fields : List (Yaml × Yaml))
  | value (column : Nat) (fields : List (Yaml × Yaml)) (key : Yaml)
  /-- No collection, but properties on a line before the node or before the mapping of which it is a
  key. -/
  | marked (properties : Properties)
  | flowItem (origin : Origin) (items : List Yaml)
  | flowPairKey (origin : Origin) (items : List Yaml)
  | flowPairValue (origin : Origin) (items : List Yaml) (key : Yaml)
  | flowField (origin : Origin) (fields : List (Yaml × Yaml))
  | flowKey (origin : Origin) (fields : List (Yaml × Yaml))
  | flowValue (origin : Origin) (fields : List (Yaml × Yaml)) (key : Yaml)

def Origin.indent (outer : Nat) (o : Origin) : Nat :=
  match o.role with
  | .next _ => o.column
  | _ => outer

def indent : List Frame → Nat
  | [] => 0
  | .entry column _ :: _ | .key column _ :: _ | .value column _ _ :: _ => column
  | .marked _ :: frames => indent frames
  | .flowItem o _ :: frames | .flowPairKey o _ :: frames | .flowPairValue o _ _ :: frames
  | .flowField o _ :: frames | .flowKey o _ :: frames | .flowValue o _ _ :: frames =>
    o.indent (indent frames)

def isFlow : List Frame → Bool
  | .flowItem .. :: _ | .flowPairKey .. :: _ | .flowPairValue .. :: _
  | .flowField .. :: _ | .flowKey .. :: _ | .flowValue .. :: _ => true
  | _ => false

/-- A sequence in a mapping may have its dashes at the column of the mapping's keys. -/
def isCompact (column : Nat) : List Frame → Bool
  | .key c _ :: _ | .value c _ _ :: _ => c == column
  | .marked _ :: frames => isCompact column frames
  | _ => false

def endsSequence (column : Nat) (dash : Bool) (own : Nat) (frames : List Frame) : Bool :=
  column < own || (column == own && !dash && isCompact own frames)

def waitsFor (column : Nat) (dash : Bool) : List Frame → Bool
  | .entry own _ :: _ => own < column
  | .key own _ :: _ | .value own _ _ :: _ => own < column || (own == column && dash)
  | .marked _ :: frames => waitsFor column dash frames
  | _ => column != 0

end Ldap.Yaml
