import Ldap.Yaml.Frame

/-! The collections of a YAML document, carried from token to token. A token at or left of the
column of a block collection ends what is open there. Which node is a key shows only when a colon
follows it on its line, unless a question mark stands before it. -/
namespace Ldap.Yaml

inductive Token where
  | openMapping
  | closeMapping
  | openSequence
  | closeSequence
  | comma
  | colon
  | question
  | dash
  | documentStart
  | documentEnd

inductive Pending where
  | start
  | prologue
  | awaits (frames : List Frame)
  | marked (origin : Origin) (frames : List Frame)
  /-- A whole node, which may yet turn out to be a key. -/
  | holds (node : Yaml) (origin : Origin) (frames : List Frame)
  | afterItem (column : Nat) (items : List Yaml) (frames : List Frame)
  | afterKey (column : Nat) (fields : List (Yaml × Yaml)) (key : Yaml) (frames : List Frame)
  | afterField (column : Nat) (fields : List (Yaml × Yaml)) (frames : List Frame)
  | complete (root : Yaml)
  | ended (root : Yaml)

/-- Gives a node to the innermost block collection and closes the collections that a token at a
column ends. -/
def settle (column : Nat) (dash : Bool) (node : Yaml) : List Frame → Option Pending
  | [] => some (.complete node)
  | .entry own items :: frames =>
    if endsSequence column dash own frames
      then settle column dash (.sequence (node :: items).reverse) frames
    else some (.afterItem own (node :: items) frames)
  | .key own fields :: frames =>
    if column < own then settle column dash (.mapping ((node, .empty) :: fields).reverse) frames
    else some (.afterKey own fields node frames)
  | .value own fields key :: frames =>
    if column < own then settle column dash (.mapping ((key, node) :: fields).reverse) frames
    else some (.afterField own ((key, node) :: fields) frames)
  | .marked properties :: frames => do settle column dash (← node.mark properties) frames
  | _ => none

namespace Pending

def inFlow : Pending → Bool
  | .awaits frames | .marked _ frames | .holds _ _ frames => isFlow frames
  | _ => false

def node? : Pending → Option (Yaml × Origin × List Frame)
  | .marked o frames => (Yaml.empty.mark o.properties).map (·, o, frames)
  | .holds node o frames => (node.mark o.properties).map (·, o, frames)
  | _ => none

def settled (column : Nat) (dash : Bool) : Pending → Option Pending
  | .awaits frames =>
    if waitsFor column dash frames then some (.awaits frames) else settle column dash .empty frames
  | .marked o frames =>
    match o.role with
    | .next _ => none
    | _ =>
      if waitsFor column dash frames then some (.marked o frames)
      else do settle column dash (← Yaml.empty.mark o.properties) frames
  | .holds node o frames =>
    match o.role with
    | .next _ => none
    | _ => do settle column dash (← node.mark o.properties) frames
  | .afterItem own items frames =>
    if endsSequence column dash own frames then settle column dash (.sequence items.reverse) frames
    else some (.afterItem own items frames)
  | .afterKey own fields key frames =>
    if column < own then settle column dash (.mapping ((key, .empty) :: fields).reverse) frames
    else some (.afterKey own fields key frames)
  | .afterField own fields frames =>
    if column < own then settle column dash (.mapping fields.reverse) frames
    else some (.afterField own fields frames)
  | s => some s

/-- Where a node that begins at a place belongs. Properties on its line are its own. -/
def place (p : Place) (s : Pending) : Option (Origin × List Frame) :=
  match s, p.allowsKey with
  | .marked o frames, false => some (o, frames)
  | s, _ => do
    match ← s.settled p.column false with
    | .start => some (p.origin .first, [])
    | .awaits frames => some (p.origin (if p.allowsKey then .first else .never), frames)
    | .marked o frames => some (p.origin .first, .marked o.properties :: frames)
    | .afterKey own fields key frames =>
      if p.column = own ∧ p.allowsKey then some (p.origin (.next ((key, .empty) :: fields)), frames)
      else none
    | .afterField own fields frames =>
      if p.column = own ∧ p.allowsKey then some (p.origin (.next fields), frames) else none
    | _ => none

/-- Where a block scalar belongs. It is never a key, and it may stand at the column of its
collection. -/
def blockPlace (p : Place) (s : Pending) : Option (Origin × List Frame) := do
  match ← s.settled (p.column + 1) false with
  | .start => some (p.origin .never, [])
  | .awaits frames => some (p.origin .never, frames)
  | .marked o frames => some ({ o with role := .never }, frames)
  | _ => none

def mark (p : Place) (properties : Properties) (s : Pending) : Option Pending :=
  match s, p.allowsKey with
  | .marked o frames, false =>
    (o.properties.merge properties).map fun properties => .marked { o with properties } frames
  | s, _ => (s.place p).map fun (o, frames) => .marked { o with properties } frames

def dash (p : Place) (s : Pending) : Option Pending := do
  if s.inFlow || !p.allowsKey then none
  else match ← s.settled p.column true with
    | .start => some (.awaits [.entry p.column []])
    | .awaits frames => some (.awaits (.entry p.column [] :: frames))
    | .marked o frames => some (.awaits (.entry p.column [] :: .marked o.properties :: frames))
    | .afterItem own items frames =>
      if p.column = own then some (.awaits (.entry own items :: frames)) else none
    | _ => none

def question (p : Place) (s : Pending) : Option Pending := do
  match s with
  | .awaits (.flowItem o items :: frames) => some (.awaits (.flowPairKey o items :: frames))
  | .awaits (.flowField o fields :: frames) => some (.awaits (.flowKey o fields :: frames))
  | s =>
    if s.inFlow || !p.allowsKey then none
    else match ← s.settled p.column false with
      | .start => some (.awaits [.key p.column []])
      | .awaits frames => some (.awaits (.key p.column [] :: frames))
      | .marked o frames => some (.awaits (.key p.column [] :: .marked o.properties :: frames))
      | .afterKey own fields key frames =>
        if p.column = own then some (.awaits (.key own ((key, .empty) :: fields) :: frames))
        else none
      | .afterField own fields frames =>
        if p.column = own then some (.awaits (.key own fields :: frames)) else none
      | _ => none

/-- The octets that a key may take, with the blanks before its colon. -/
def maxKeyLength : Nat := 1024

/-- Whether a colon makes a key of the node before it, which stands on the line of the colon and
is not longer than the limit. -/
def isKey (p : Place) : Pending → Bool
  | .marked o frames | .holds _ o frames =>
    p.line == o.line && p.offset ≤ o.offset + maxKeyLength &&
      match frames, o.role with
      | .flowItem .. :: _, _ | .flowField .. :: _, _ => true
      | _, .never => false
      | frames, _ => !isFlow frames
  | _ => false

def awaitsPair (o : Origin) (items : List Yaml) (frames : List Frame) : Pending :=
  .holds .empty { o with properties := {} } (.flowPairKey o items :: frames)

/-- A colon that does not make a key of the node before it: the value of a key that has a question
mark. In a flow sequence a key that is left out takes a mark with it. -/
def value (p : Place) (s : Pending) : Option Pending := do
  match s with
  | .awaits (.flowKey o fields :: frames) => some (.awaits (.flowValue o fields .empty :: frames))
  | .awaits (.flowPairKey o items :: frames) => some (.awaitsPair o items frames)
  | s =>
    if s.inFlow then
      match ← s.node? with
      | (node, _, .flowKey o fields :: frames) =>
        some (.awaits (.flowValue o fields node :: frames))
      | (node, _, .flowPairKey o items :: frames) =>
        some (.awaits (.flowPairValue o items node :: frames))
      | _ => none
    else if p.allowsKey then
      match ← s.settled p.column false with
      | .afterKey own fields key frames =>
        if p.column = own then some (.awaits (.value own fields key :: frames)) else none
      | _ => none
    else none

def colon (p : Place) (s : Pending) : Option Pending := do
  if s.isKey p then
    match ← s.node? with
    | (node, _, .flowItem o items :: frames) =>
      some (.awaits (.flowPairValue o items node :: frames))
    | (node, _, .flowField o fields :: frames) =>
      some (.awaits (.flowValue o fields node :: frames))
    | (node, o, frames) =>
      match o.role with
      | .next fields => some (.awaits (.value o.column fields node :: frames))
      | _ => some (.awaits (.value o.column [] node :: frames))
  else s.value p

def absorb (s : Pending) : Option Pending := do
  match s with
  | .awaits (.flowPairValue o items key :: frames) =>
    some (.awaits (.flowItem o (.mapping [(key, .empty)] :: items) :: frames))
  | .awaits (.flowKey o fields :: frames) =>
    some (.awaits (.flowField o ((.empty, .empty) :: fields) :: frames))
  | .awaits (.flowValue o fields key :: frames) =>
    some (.awaits (.flowField o ((key, .empty) :: fields) :: frames))
  | s =>
    match ← s.node? with
    | (node, _, .flowItem o items :: frames) =>
      some (.awaits (.flowItem o (node :: items) :: frames))
    | (node, _, .flowPairKey o items :: frames) =>
      some (.awaits (.flowItem o (.mapping [(node, .empty)] :: items) :: frames))
    | (node, _, .flowPairValue o items key :: frames) =>
      some (.awaits (.flowItem o (.mapping [(key, node)] :: items) :: frames))
    | (node, _, .flowField o fields :: frames) | (node, _, .flowKey o fields :: frames) =>
      some (.awaits (.flowField o ((node, .empty) :: fields) :: frames))
    | (node, _, .flowValue o fields key :: frames) =>
      some (.awaits (.flowField o ((key, node) :: fields) :: frames))
    | _ => none

def comma : Pending → Option Pending
  | .awaits (.flowPairKey o items :: frames) => some (.awaitsPair o items frames)
  | s => s.absorb

def closeSequence (s : Pending) : Option Pending :=
  match s.absorb.getD s with
  | .awaits (.flowItem o items :: frames) => some (.holds (.sequence items.reverse) o frames)
  | _ => none

def closeMapping (s : Pending) : Option Pending :=
  match s.absorb.getD s with
  | .awaits (.flowField o fields :: frames) => some (.holds (.mapping fields.reverse) o frames)
  | _ => none

def root? (s : Pending) : Option Yaml := do
  match ← s.settled 0 false with
  | .start => some .empty
  | .complete root | .ended root => some root
  | _ => none

def next (p : Place) (s : Pending) : Token → Option Pending
  | .openSequence => (s.place p).map fun (o, frames) => .awaits (.flowItem o [] :: frames)
  | .openMapping => (s.place p).map fun (o, frames) => .awaits (.flowField o [] :: frames)
  | .closeSequence => s.closeSequence
  | .closeMapping => s.closeMapping
  | .comma => s.comma
  | .colon => s.colon p
  | .question => s.question p
  | .dash => s.dash p
  | .documentStart =>
    match s with
    | .start | .prologue => some (.awaits [])
    | _ => none
  | .documentEnd =>
    match s with
    | .start => none
    | s => s.root?.map .ended

end Pending
end Ldap.Yaml
