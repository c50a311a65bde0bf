import Gamewire.Admin.Http
import Gamewire.Cli.Run
import Gamewire.Client.Bundle
import Gamewire.Main
import Gamewire.Proofs.Wire.Codec
import Gamewire.Room.Backlog
import Gamewire.Room.Script
import Gamewire.Schema.Fingerprint
import Gamewire.Schema.Load
import Gamewire.Server.Config
import Gamewire.Server.Machine
import Gamewire.Wire.Control
import Gamewire.Proofs.Wire.RoundTrip
import Gamewire.Proofs.Room.Members
import Gamewire.Proofs.Room.Registry
import Gamewire.Proofs.Room.Machine
import Gamewire.Proofs.Room.Lobby
import Gamewire.Proofs.Room.Capacity
import Gamewire.Proofs.Room.Account
import Gamewire.Proofs.Room.Membership
import Gamewire.Proofs.Room.Grace
import Gamewire.Proofs.Room.Policy
import Gamewire.Proofs.Room.Teardown
import Gamewire.Proofs.Schema.WellFormed
import Gamewire.Proofs.Room.Effects
import Gamewire.Proofs.Room.Queues
import Gamewire.Proofs.Room.Relay
import Gamewire.Proofs.Room.Isolation
import Gamewire.Proofs.Room.Faults
import Gamewire.Proofs.Room.Notices
import Gamewire.Proofs.Room.Holders
import Gamewire.Proofs.Room.Closing
import Gamewire.Proofs.Room.Shutdown
import Gamewire.Proofs.Room.Frames
import Gamewire.Proofs.Server.Run
import Gamewire.Proofs.Server.Stream
import Gamewire.Proofs.Room.Tenancy
import Gamewire.Proofs.Server.Membership
import Gamewire.Proofs.Client.Names
import Gamewire.Proofs.Schema.Fingerprint
import Gamewire.Proofs.Wire.Extension
import Gamewire.Client.Source
import Gamewire.Client.Meaning
import Gamewire.Proofs.Client.Scan
import Gamewire.Proofs.Client.Declarations
import Gamewire.Proofs.Client.Source
import Gamewire.Proofs.Client.Objects
import Gamewire.Proofs.Client.Writing
import Gamewire.Proofs.Client.Follows
import Gamewire.Proofs.Client.Readers
import Gamewire.Proofs.Client.Scope
import Gamewire.Proofs.Client.Calls
import Gamewire.Proofs.Client.Control
import Gamewire.Proofs.Client.Agreement
import Gamewire.Proofs.Text.Search
import Gamewire.Proofs.Client.Shell
import Gamewire.Proofs.Client.Generated
import Gamewire.Proofs.Client.Rewriting
import Gamewire.Proofs.Room.Filter
import Gamewire.Proofs.Room.Dispatch
import Gamewire.Proofs.Room.Receiver
import Gamewire.Proofs.Room.Streams
import Gamewire.Proofs.Room.Bystanders
import Gamewire.Proofs.Admin.Access
import Gamewire.Proofs.Room.Numbers
import Gamewire.Proofs.Room.LastWords
import Gamewire.Proofs.Wire.Conformance
import Gamewire.Proofs.Wire.Faults
import Gamewire.Proofs.Schema.Report
import Gamewire.Proofs.Toml.Quoted
import Gamewire.Proofs.Toml.Number
import Gamewire.Proofs.Toml.Document
import Gamewire.Proofs.Toml.Tree
import Gamewire.Proofs.Schema.File
import Gamewire.Proofs.Wire.Largest
import Gamewire.Proofs.Text.Truncation
import Gamewire.Proofs.Wire.Control
import Gamewire.Proofs.Text.Words
import Gamewire.Proofs.Schema.TypeName
import Gamewire.Proofs.Server.Start
import Gamewire.Proofs.Text.Joints
import Gamewire.Proofs.Client.Removal
import Gamewire.Proofs.Wire.Named
import Gamewire.Proofs.Json.RoundTrip
import Gamewire.Proofs.Client.Description
import Gamewire.Proofs.Admin.Answers
import Gamewire.Proofs.Toml.Range
import Gamewire.Proofs.Files.Tree
import Gamewire.Proofs.Server.Settings
