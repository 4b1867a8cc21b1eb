import AccountRoster.Dict
import AccountRoster.Text.Blank
import AccountRoster.Text.Lines
import AccountRoster.Text.Quoted
import AccountRoster.Text.Identifier
import AccountRoster.Number.DoubleText
import AccountRoster.Schema
import AccountRoster.Codec
import AccountRoster.Json.Reader
import AccountRoster.Json.Printer
import AccountRoster.Error
import AccountRoster.Keyfile.Text
import AccountRoster.Roster.Identification
import AccountRoster.Backend
import AccountRoster.Config
import AccountRoster.Command
import AccountRoster.Command.Arguments
import AccountRoster.Command.Session
import AccountRoster.Main
import AccountRoster.Proofs.Codec.OneLine
import AccountRoster.Proofs.Codec.RoundTrip
import AccountRoster.Proofs.Keyfile.Rereading
import AccountRoster.Proofs.Keyfile.Stability
import AccountRoster.Proofs.Roster.Restart
import AccountRoster.Proofs.Cache.Edits
import AccountRoster.Proofs.Roster.Registry
import AccountRoster.Proofs.Roster.Operations
import AccountRoster.Proofs.Roster.TypedReads
import AccountRoster.Proofs.Roster.Watching
import AccountRoster.Proofs.Roster.LoadOutcome
import AccountRoster.Proofs.Config
import AccountRoster.Proofs.Cache.UniqueName
import AccountRoster.Proofs.Backend.Memory
import AccountRoster.Proofs.Roster.Backends
import AccountRoster.Proofs.Roster.Coupling
import AccountRoster.Proofs.Roster.Authority
import AccountRoster.Proofs.Roster.InProcess
import AccountRoster.Proofs.Roster.AllOrNothing
import AccountRoster.Proofs.Backend.DirtyMark
import AccountRoster.Proofs.Roster.Unread
import AccountRoster.Proofs.Roster.Creation
import AccountRoster.Proofs.Roster.Removal
import AccountRoster.Proofs.Roster.Listing
import AccountRoster.Proofs.Roster.Overwriting
import AccountRoster.Proofs.Roster.Separators
import AccountRoster.Proofs.Command.Secrecy
import AccountRoster.Proofs.Keyfile.Grammar
import AccountRoster.Proofs.Codec.AsText
import AccountRoster.Proofs.Codec.Integers
import AccountRoster.Proofs.Roster.ReadBack
import AccountRoster.Proofs.Roster.Dispatch
import AccountRoster.Proofs.Roster.Arbitration
import AccountRoster.Proofs.Roster.SecretMarks
import AccountRoster.Proofs.Command.Reading
import AccountRoster.Proofs.Command.SetBack
import AccountRoster.Proofs.Codec.FinalSeparator
import AccountRoster.Proofs.Keyfile.TypedAccess
import AccountRoster.Proofs.Keyfile.Reports
import AccountRoster.Proofs.Roster.PriorityOrder
import AccountRoster.Proofs.Backend.RefusedWrites
