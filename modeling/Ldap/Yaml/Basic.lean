import Ldap.Octets

/-! YAML nodes. A scalar keeps how it was written, since only a plain one may stand for something
other than its text. A node may carry an anchor, by which other places refer to it, and a tag,
which says what it is. -/
namespace Ldap

/-- What stands before a node. An anchor is known by its number. -/
structure Yaml.Properties where
  anchor : Option Nat := none
  tag : Option Octets := none
  deriving Repr, DecidableEq

inductive Yaml where
  | plain (s : String)
  | quoted (s : String)
  | literal (s : String)
  | sequence (items : List Yaml)
  | mapping (fields : List (Yaml × Yaml))
  | reference (anchor : Nat)
  | marked (properties : Yaml.Properties) (node : Yaml)
  deriving Repr

namespace Yaml

def empty : Yaml := .plain ""

def standardTag (name : String) : Octets := utf8 ("tag:yaml.org,2002:" ++ name)

def bareTag : Octets := utf8 "!"

def Properties.merge (p q : Properties) : Option Properties :=
  if (p.anchor.isSome && q.anchor.isSome) || (p.tag.isSome && q.tag.isSome) then none
  else some ⟨p.anchor.or q.anchor, p.tag.or q.tag⟩

def mark (p : Properties) (node : Yaml) : Option Yaml :=
  if p = {} then some node
  else match node with
    | .reference _ => none
    | .marked q node => (p.merge q).map (.marked · node)
    | node => some (.marked p node)

def text? : Yaml → Option String
  | .plain s | .quoted s | .literal s => some s
  | .marked _ node => node.text?
  | _ => none

def isNull (s : String) : Bool := ["~", "null", "Null", "NULL"].contains s

/-- The text of a scalar, and none for null. Any tag but that of null makes text of a plain
scalar. -/
def optionalText? : Yaml → Option (Option String)
  | .plain s => if s = "" ∨ isNull s then some none else some (some s)
  | .marked ⟨_, none⟩ node => node.optionalText?
  | .marked ⟨_, some tag⟩ (.plain s) =>
    if isNull s then if tag = standardTag "null" ∨ tag = bareTag then some none else some (some s)
    else if tag = standardTag "null" then none
    else some (some s)
  | node => node.text?.map some

def truth? (s : String) : Option Bool :=
  if ["true", "True", "TRUE"].contains s then some true
  else if ["false", "False", "FALSE"].contains s then some false
  else none

def bool? : Yaml → Option Bool
  | .plain s => truth? s
  | .marked _ (.plain s) => truth? s
  | .marked p (.literal s) => if p.tag = some (standardTag "bool") then truth? s else none
  | _ => none

def fields? : Yaml → Option (List (Yaml × Yaml))
  | .plain s => if s = "" then some [] else none
  | .mapping fields => some fields
  | .marked _ node => node.fields?
  | _ => none

mutual
def anchored : Yaml → List (Nat × Yaml)
  | .marked ⟨some n, tag⟩ node => (n, .marked ⟨some n, tag⟩ node) :: anchored node
  | .marked ⟨none, _⟩ node => anchored node
  | .sequence items => anchoredItems items
  | .mapping fields => anchoredFields fields
  | _ => []
def anchoredItems : List Yaml → List (Nat × Yaml)
  | [] => []
  | item :: items => anchored item ++ anchoredItems items
def anchoredFields : List (Yaml × Yaml) → List (Nat × Yaml)
  | [] => []
  | (key, value) :: fields => anchored key ++ anchored value ++ anchoredFields fields
end

/-- A root with the nodes that references in it stand for. -/
structure Document where
  root : Yaml
  targets : List (Nat × Yaml)

namespace Document

def ofRoot (root : Yaml) : Document := ⟨root, root.anchored.reverse⟩

/-- What a node stands for; of the nodes with one number it is the last. -/
def resolve (d : Document) : Yaml → Yaml
  | .reference n => (d.targets.lookup n).getD (.reference n)
  | node => node

def fields? (d : Document) (node : Yaml) : Option (List (String × Yaml)) := do
  (← node.fields?).mapM fun (key, value) => (d.resolve key).text?.map (·, d.resolve value)

end Document
end Yaml
end Ldap
