import CredentialCeremony.Availability.Policy
import CredentialCeremony.Binary.Cbor
import CredentialCeremony.Binary.Edit
import CredentialCeremony.Proofs.Availability.Decisions
import CredentialCeremony.Proofs.Availability.Detection
import CredentialCeremony.Proofs.Availability.NormalForm
import CredentialCeremony.Proofs.Availability.Order
import CredentialCeremony.Proofs.Availability.Policy
import CredentialCeremony.Proofs.Availability.Requirement
import CredentialCeremony.Proofs.Availability.UserAgent
import CredentialCeremony.Proofs.Availability.Version
import CredentialCeremony.Proofs.Availability.VersionText
import CredentialCeremony.Proofs.Binary.Base64
import CredentialCeremony.Proofs.Binary.Bits
import CredentialCeremony.Proofs.Binary.Carriers
import CredentialCeremony.Proofs.Binary.Heads
import CredentialCeremony.Proofs.Binary.Items
import CredentialCeremony.Proofs.Extensions
import CredentialCeremony.Proofs.FieldNames
import CredentialCeremony.Proofs.Form
import CredentialCeremony.Proofs.Json.Front
import CredentialCeremony.Proofs.Json.Grammar
import CredentialCeremony.Proofs.Json.Kept
import CredentialCeremony.Proofs.Json.Legible
import CredentialCeremony.Proofs.Json.Members
import CredentialCeremony.Proofs.Json.Numbers
import CredentialCeremony.Proofs.Json.Outline
import CredentialCeremony.Proofs.Json.Printing
import CredentialCeremony.Proofs.Json.Resolution
import CredentialCeremony.Proofs.Json.Spans
import CredentialCeremony.Proofs.Json.Spelling
import CredentialCeremony.Proofs.Layers
import CredentialCeremony.Proofs.Negotiation
import CredentialCeremony.Proofs.Number.Digits
import CredentialCeremony.Proofs.Number.Double
import CredentialCeremony.Proofs.Options.Decoding
import CredentialCeremony.Proofs.Options.Documents
import CredentialCeremony.Proofs.Options.KeyParameters
import CredentialCeremony.Proofs.Options.LenientFields
import CredentialCeremony.Proofs.Options.Parameters
import CredentialCeremony.Proofs.Options.Rereading
import CredentialCeremony.Proofs.Options.Structs
import CredentialCeremony.Proofs.Options.Timeouts
import CredentialCeremony.Proofs.Options.TolerantLists
import CredentialCeremony.Proofs.Options.Verdicts
import CredentialCeremony.Proofs.Overriding
import CredentialCeremony.Proofs.Reading.Confined
import CredentialCeremony.Proofs.Reading.Enclosed
import CredentialCeremony.Proofs.Reading.Loop
import CredentialCeremony.Proofs.Reading.Onward
import CredentialCeremony.Proofs.Reading.Run
import CredentialCeremony.Proofs.Reading.Skip
import CredentialCeremony.Proofs.Reading.Token
import CredentialCeremony.Proofs.Reading.Value
import CredentialCeremony.Proofs.Reading.Widened
import CredentialCeremony.Proofs.Schema.Answer
import CredentialCeremony.Proofs.Schema.Apart
import CredentialCeremony.Proofs.Schema.Astray
import CredentialCeremony.Proofs.Schema.Declared
import CredentialCeremony.Proofs.Schema.Enclosed
import CredentialCeremony.Proofs.Schema.Field
import CredentialCeremony.Proofs.Schema.Fieldwise
import CredentialCeremony.Proofs.Schema.Frame
import CredentialCeremony.Proofs.Schema.Further
import CredentialCeremony.Proofs.Schema.Isolation
import CredentialCeremony.Proofs.Schema.Leaf
import CredentialCeremony.Proofs.Schema.Obtained
import CredentialCeremony.Proofs.Schema.Onward
import CredentialCeremony.Proofs.Schema.Place
import CredentialCeremony.Proofs.Schema.Records
import CredentialCeremony.Proofs.Schema.Refined
import CredentialCeremony.Proofs.Schema.Reported
import CredentialCeremony.Proofs.Schema.RoundTrip
import CredentialCeremony.Proofs.Schema.Standing
import CredentialCeremony.Proofs.Schema.Strict
import CredentialCeremony.Proofs.Schema.Tame
import CredentialCeremony.Proofs.Schema.Timeout
import CredentialCeremony.Proofs.Schema.Tolerance
import CredentialCeremony.Proofs.Schema.Variation
import CredentialCeremony.Proofs.Schema.Verdict
import CredentialCeremony.Proofs.Schema.Whole
import CredentialCeremony.Proofs.Service.Prefetching
import CredentialCeremony.Proofs.Service.Runs
import CredentialCeremony.Proofs.Service.Stages
import CredentialCeremony.Proofs.Submission
import CredentialCeremony.Proofs.Text.Parts
import CredentialCeremony.Proofs.Text.Pieces
import CredentialCeremony.Proofs.Traversal
import CredentialCeremony.Proofs.Web.Fetch
import CredentialCeremony.Service.Basic
import CredentialCeremony.Submission
import CredentialCeremony.Web.Fetch
