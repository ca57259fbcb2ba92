import Ldap.Json.Token

/-! JSON documents. A text is one value, found by carrying the containers that are still open from
token to token. At most 127 containers may be open at a time. -/
namespace Ldap.Json

/-- An open container that waits for a value: the items so far with the last one first, or the
fields so far and the key whose value is to come. -/
inductive Frame where
  | array (items : List Json)
  | object (fields : Fields) (key : String)

inductive Pending where
  | needValue (frames : List Frame)
  | firstItem (frames : List Frame)
  | afterItem (items : List Json) (frames : List Frame)
  | firstKey (frames : List Frame)
  | needKey (fields : Fields) (frames : List Frame)
  | needColon (fields : Fields) (key : String) (frames : List Frame)
  | afterField (fields : Fields) (frames : List Frame)
  | complete (value : Json)

namespace Pending

def maxDepth : Nat := 127

def supply (value : Json) : List Frame → Pending
  | [] => .complete value
  | .array items :: frames => .afterItem (value :: items) frames
  | .object fields key :: frames => .afterField (fields.put key value) frames

def begin (frames : List Frame) : Token → Option Pending
  | .scalar value => some (supply value frames)
  | .string s => some (supply (.string s) frames)
  | .openArray => if frames.length < maxDepth then some (.firstItem frames) else none
  | .openObject => if frames.length < maxDepth then some (.firstKey frames) else none
  | _ => none

def next : Pending → Token → Option Pending
  | .needValue frames, t => begin frames t
  | .firstItem frames, .closeArray => some (supply (.array []) frames)
  | .firstItem frames, t => begin (.array [] :: frames) t
  | .afterItem items frames, .comma => some (.needValue (.array items :: frames))
  | .afterItem items frames, .closeArray => some (supply (.array items.reverse) frames)
  | .firstKey frames, .closeObject => some (supply (.object []) frames)
  | .firstKey frames, .string key => some (.needColon [] key frames)
  | .needKey fields frames, .string key => some (.needColon fields key frames)
  | .needColon fields key frames, .colon => some (.needValue (.object fields key :: frames))
  | .afterField fields frames, .comma => some (.needKey fields frames)
  | .afterField fields frames, .closeObject => some (supply (.object fields) frames)
  | _, _ => none

end Pending

def ofTokens? (ts : List Token) : Option Json := do
  match ← ts.foldlM Pending.next (.needValue []) with
  | .complete value => some value
  | _ => none

def ofText? (s : String) : Option Json := do ofTokens? (← tokens? s.toList)

end Ldap.Json
