import Ldap.Json.Document
import Ldap.Json.Text
import Ldap.Main
import Ldap.Registry.Basic
import Ldap.Settings
import Ldap.Text.Base64
import Ldap.Text.Blank
import Ldap.Proofs.Registry.Recoding
import Ldap.Proofs.CommandLine.Printing
import Ldap.Proofs.Registry.RawValues
import Ldap.Proofs.Registry.Strictness
import Ldap.Proofs.Registry.Runs
import Ldap.Proofs.Text.Order
import Ldap.Proofs.Registry.Registrations
import Ldap.Proofs.Registry.Counters
import Ldap.Proofs.Registry.ForeignOids
import Ldap.Proofs.Registry.Relevance
import Ldap.Proofs.Registry.Rendering
import Ldap.Proofs.Envelope.Acceptance
import Ldap.Proofs.Request.Agreement
import Ldap.Proofs.Text.Spelling
import Ldap.Proofs.ControlObject.Acceptance
import Ldap.Proofs.Registry.Faults
import Ldap.Proofs.Envelope.Pointwise
import Ldap.Proofs.Registry.Messages
import Ldap.Proofs.Registry.Search
import Ldap.Proofs.Text.Hex
import Ldap.Proofs.CommandLine.Spelling
import Ldap.Proofs.Ber.Extent
import Ldap.Proofs.Ber.Tree
import Ldap.Proofs.CommandLine.Documents
import Ldap.Proofs.Ber.Session
import Ldap.Proofs.Ber.Cursor
