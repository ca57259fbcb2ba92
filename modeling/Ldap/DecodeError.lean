import Ldap.Ber.Error

/-! Why a control could not be decoded, from BER or from JSON. A decoder gives a whole control or
one of these causes; `message` is the only place where a cause is put into words. -/
namespace Ldap

inductive Expected where
  | object
  | nonEmptyString
  | string
  | boolean
  | base64
  | stringArray
  | typeOid
  | syncMode
  deriving Repr, DecidableEq

def Expected.text : Expected → String
  | .object => "a JSON object"
  | .nonEmptyString => "a non-empty string"
  | .string => "a string"
  | .boolean => "a boolean"
  | .base64 => "a base64-encoded string"
  | .stringArray => "an array of strings"
  | .typeOid => "the OID of the decoded control type"
  | .syncMode => "\"refresh-only\" or \"refresh-and-persist\""

inductive Location where
  | controlObject
  | structuredValue
  deriving Repr, DecidableEq

def Location.text : Location → String
  | .controlObject => "control object"
  | .structuredValue => "value-json"

inductive Conflict where
  | bothForms
  | noForm
  | structuredWithoutDecoder
  deriving Repr, DecidableEq

def Conflict.text : Conflict → String
  | .bothForms => "value-base64 and value-json are mutually exclusive"
  | .noForm => "exactly one of value-base64 or value-json is required"
  | .structuredWithoutDecoder =>
    "value-json is not supported for controls without a registered decoder"

inductive Malformed where
  | ber (error : Ber.Error)
  | controlTypeTag (tag : Ber.Tag)
  | emptySequence
  | emptyControlType
  | strayElement (tag : Ber.Tag)
  | foreignOid (expected actual : String)
  | duplicateElement (tag : Ber.Tag)
  | unrecognizedElement (tag : Ber.Tag)
  | missingMode
  | invalidMode (mode : UInt8)
  deriving Repr, DecidableEq

def Malformed.text : Malformed → String
  | .ber error => error.message
  | .controlTypeTag tag => s!"expected control type OCTET STRING, got tag {tag.text}"
  | .emptySequence => "empty control sequence"
  | .emptyControlType => "empty control type"
  | .strayElement tag => s!"unexpected element with tag {tag.text} in control sequence"
  | .foreignOid expected actual => s!"control type {expected} cannot decode OID {actual}"
  | .duplicateElement tag => s!"duplicate element type {tag.text}"
  | .unrecognizedElement tag => s!"unrecognized element type {tag.text}"
  | .missingMode => "missing sync request mode"
  | .invalidMode mode => s!"invalid sync request mode: {mode.toNat}"

inductive DecodeError where
  | missingField (field : String)
  | typeMismatch (field : String) (expected : Expected)
  | unrecognizedField (field : String) (location : Location)
  | conflictingValue (oid : String) (conflict : Conflict)
  | unexpectedValue (oid : String)
  | missingValue (oid : String)
  | malformed (oid : Option String) (reason : Malformed)
  deriving Repr, DecidableEq

namespace DecodeError

inductive Kind where
  | missingField
  | typeMismatch
  | unrecognizedField
  | conflictingValue
  | unexpectedValue
  | missingValue
  | malformed
  deriving Repr, DecidableEq

def Kind.all : List Kind :=
  [.missingField, .typeMismatch, .unrecognizedField, .conflictingValue, .unexpectedValue,
    .missingValue, .malformed]

def Kind.name : Kind → String
  | .missingField => "missing_field"
  | .typeMismatch => "type_mismatch"
  | .unrecognizedField => "unrecognized_field"
  | .conflictingValue => "conflicting_value_representation"
  | .unexpectedValue => "unexpected_value"
  | .missingValue => "missing_value"
  | .malformed => "malformed_binary_encoding"

def kind : DecodeError → Kind
  | .missingField _ => .missingField
  | .typeMismatch _ _ => .typeMismatch
  | .unrecognizedField _ _ => .unrecognizedField
  | .conflictingValue _ _ => .conflictingValue
  | .unexpectedValue _ => .unexpectedValue
  | .missingValue _ => .missingValue
  | .malformed _ _ => .malformed

def message : DecodeError → String
  | .missingField field => s!"JSON control object is missing required field '{field}'"
  | .typeMismatch field expected => s!"JSON field '{field}' must be {expected.text}"
  | .unrecognizedField field location => s!"unrecognized field '{field}' in {location.text}"
  | .conflictingValue oid conflict => s!"control {oid}: {conflict.text}"
  | .unexpectedValue oid => s!"control {oid} must not have a value"
  | .missingValue oid => s!"control {oid} requires a value"
  | .malformed none reason => s!"malformed BER encoding: {reason.text}"
  | .malformed (some oid) reason => s!"malformed BER encoding in control {oid}: {reason.text}"

end DecodeError

/-- A failed BER read, blamed on the control `oid` where that is known. -/
def blame {α : Type} (oid : Option String) (read : Except Ber.Error α) : Except DecodeError α :=
  read.mapError fun e => .malformed oid (.ber e)

end Ldap
