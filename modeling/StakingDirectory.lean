import StakingDirectory.Address
import StakingDirectory.Archive
import StakingDirectory.Bytes
import StakingDirectory.Curve.Ecdsa
import StakingDirectory.Curve.Field
import StakingDirectory.Curve.Point
import StakingDirectory.Digest.Keccak
import StakingDirectory.Digest.Sha256
import StakingDirectory.Directory.Allotment
import StakingDirectory.Directory.Basic
import StakingDirectory.Directory.Membership
import StakingDirectory.Directory.Standing
import StakingDirectory.Directory.Upload
import StakingDirectory.FixedBytes
import StakingDirectory.Http.Bearer
import StakingDirectory.Http.Endpoint
import StakingDirectory.Http.Message
import StakingDirectory.Http.Query
import StakingDirectory.Http.Section
import StakingDirectory.Json.Codec
import StakingDirectory.Json.Reader
import StakingDirectory.Json.Value
import StakingDirectory.Main
import StakingDirectory.Operation
import StakingDirectory.Pubkey
import StakingDirectory.Record.Deposit
import StakingDirectory.Record.Envelope
import StakingDirectory.Record.Exit
import StakingDirectory.Record.Identifier
import StakingDirectory.Record.Message
import StakingDirectory.Record.Status
import StakingDirectory.Refusal
import StakingDirectory.Service
import StakingDirectory.Session
import StakingDirectory.Signature
import StakingDirectory.Startup.CommandLine
import StakingDirectory.Startup.EnvFile
import StakingDirectory.Startup.IpAddress
import StakingDirectory.Startup.Launch
import StakingDirectory.Startup.Settings
import StakingDirectory.Text.Blank
import StakingDirectory.Text.Control
import StakingDirectory.Text.Hex
import StakingDirectory.Text.Letter
import StakingDirectory.Text.Numeral
import StakingDirectory.Text.Split
import StakingDirectory.Text.Utf8
import StakingDirectory.Proofs.Outcome
import StakingDirectory.Proofs.Directory.Effect
import StakingDirectory.Proofs.Directory.Check
import StakingDirectory.Proofs.Directory.Ownership
import StakingDirectory.Proofs.Directory.Holdings
import StakingDirectory.Proofs.Directory.Validators
import StakingDirectory.Proofs.Directory.Growth
import StakingDirectory.Proofs.Directory.Records
import StakingDirectory.Proofs.Directory.Extension
import StakingDirectory.Proofs.Directory.Progress
import StakingDirectory.Proofs.Directory.Intake
import StakingDirectory.Proofs.Directory.Arrival
import StakingDirectory.Proofs.Allotment.Choice
import StakingDirectory.Proofs.Directory.Uploads
import StakingDirectory.Proofs.Allotment.Cycle
import StakingDirectory.Proofs.Allotment.Marking
import StakingDirectory.Proofs.Allotment.Selection
import StakingDirectory.Proofs.Allotment.Issue
import StakingDirectory.Proofs.Allotment.Drain
import StakingDirectory.Proofs.Allotment.Destination
import StakingDirectory.Proofs.Archive.Slots
import StakingDirectory.Proofs.Archive.Versions
import StakingDirectory.Proofs.Archive.Cells
import StakingDirectory.Proofs.Session
import StakingDirectory.Proofs.Text.Hex
import StakingDirectory.Proofs.Text.Utf8
import StakingDirectory.Proofs.Signature.Payload
import StakingDirectory.Proofs.Json.Reader
import StakingDirectory.Proofs.Json.Codec
import StakingDirectory.Proofs.Record.Wire
import StakingDirectory.Proofs.Service.Command
import StakingDirectory.Proofs.Archive.Retained
import StakingDirectory.Proofs.Service.Authentication
import StakingDirectory.Proofs.Service.Publication
import StakingDirectory.Proofs.Service.Growth
import StakingDirectory.Proofs.Service.Polling
import StakingDirectory.Proofs.Service.Freshness
import StakingDirectory.Proofs.Http.Act
import StakingDirectory.Proofs.Http.Effects
import StakingDirectory.Proofs.Http.Interleaving
import StakingDirectory.Proofs.Http.Linearization
import StakingDirectory.Proofs.Http.Guard
import StakingDirectory.Proofs.Service.Registration
import StakingDirectory.Proofs.Allotment.Provenance
import StakingDirectory.Proofs.Http.Run
import StakingDirectory.Proofs.Http.Custody
import StakingDirectory.Proofs.Directory.Exits
import StakingDirectory.Proofs.Allotment.Reports
import StakingDirectory.Proofs.Service.Login
import StakingDirectory.Proofs.Allotment.Replacement
import StakingDirectory.Proofs.Digest.Sha256
import StakingDirectory.Proofs.Text.HexGrammar
import StakingDirectory.Proofs.Text.Split
import StakingDirectory.Proofs.Http.Spelling
import StakingDirectory.Proofs.Signature.Recovery
import StakingDirectory.Proofs.Http.Bearer
import StakingDirectory.Proofs.Text.Numeral
import StakingDirectory.Proofs.Startup.CommandLine
import StakingDirectory.Proofs.Startup.Settings
import StakingDirectory.Proofs.Archive.Accounts
import StakingDirectory.Proofs.Service.Process
