import ProtectionProvider.Value
import ProtectionProvider.Text.Basic
import ProtectionProvider.Text.Octets
import ProtectionProvider.Json.Basic
import ProtectionProvider.Json.Reader
import ProtectionProvider.Entity.State
import ProtectionProvider.Policy.Basic
import ProtectionProvider.Group.Basic
import ProtectionProvider.Entity.Dynamic
import ProtectionProvider.Filter
import ProtectionProvider.DataSource.Basic
import ProtectionProvider.Url.Reader
import ProtectionProvider.Client.Basic
import ProtectionProvider.Client.Call
import ProtectionProvider.Diagnostic
import ProtectionProvider.DataSource.Read
import ProtectionProvider.Policy.Resource
import ProtectionProvider.Provider
import ProtectionProvider.Session
import ProtectionProvider.Proofs.Policy.Drift
import ProtectionProvider.Proofs.Policy.Identity
import ProtectionProvider.Proofs.Policy.Revision
import ProtectionProvider.Proofs.Client.Addresses
import ProtectionProvider.Proofs.Policy.Creation
import ProtectionProvider.Proofs.Policy.Fulfilment
import ProtectionProvider.Proofs.Policy.Refresh
import ProtectionProvider.Proofs.Client.Confinement
import ProtectionProvider.Proofs.Client.Credentials
import ProtectionProvider.Proofs.Session.Discipline
import ProtectionProvider.Proofs.Session.Relay
import ProtectionProvider.Proofs.Session.Secrecy
import ProtectionProvider.Proofs.DataSource.Conformance
import ProtectionProvider.Proofs.Entity.Documents
import ProtectionProvider.Proofs.Policy.Encoding
import ProtectionProvider.Proofs.DataSource.Agreement
import ProtectionProvider.Proofs.Entity.NormalForm
import ProtectionProvider.Proofs.Policy.Planning
import ProtectionProvider.Proofs.DataSource.Independence
import ProtectionProvider.Proofs.Session.Reports
import ProtectionProvider.Proofs.Policy.Removal
import ProtectionProvider.Proofs.Url.Reading
import ProtectionProvider.Proofs.Client.Query
import ProtectionProvider.Proofs.Filter.Parameters
import ProtectionProvider.Proofs.DataSource.Filtering
import ProtectionProvider.Proofs.Entity.Completion
import ProtectionProvider.Proofs.Provider.Validation
import ProtectionProvider.Proofs.Provider.Configuration
import ProtectionProvider.Proofs.Entity.Editing
import ProtectionProvider.Proofs.Session.Compatibility
import ProtectionProvider.Proofs.Policy.Submission
import ProtectionProvider.Proofs.Session.Refusals
import ProtectionProvider.Proofs.Client.Slashes
