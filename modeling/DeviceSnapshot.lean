import DeviceSnapshot.Main
import DeviceSnapshot.Table.Reader
import DeviceSnapshot.Pattern.CharRanges
import DeviceSnapshot.Unicode.ByteRanges
import DeviceSnapshot.Proofs.Record.Collision
import DeviceSnapshot.Proofs.Record.RoundTrip
import DeviceSnapshot.Proofs.Record.ReadBack
import DeviceSnapshot.Proofs.Record.Stability
import DeviceSnapshot.Proofs.Record.HostIndependence
import DeviceSnapshot.Proofs.Record.TwoPasses
import DeviceSnapshot.Proofs.Entry.Encodings
import DeviceSnapshot.Proofs.Printing.Outcome
import DeviceSnapshot.Proofs.Printing.MemberOrder
import DeviceSnapshot.Proofs.Printing.Reprinting
import DeviceSnapshot.Proofs.Printing.Handling
import DeviceSnapshot.Proofs.CommandLine.Printing
import DeviceSnapshot.Proofs.Printing.WithoutRules
import DeviceSnapshot.Proofs.Entry.Amendment
import DeviceSnapshot.Proofs.Entry.Tagging
import DeviceSnapshot.Proofs.Entry.Writing
import DeviceSnapshot.Proofs.Entry.Faults
import DeviceSnapshot.Proofs.Entry.Commutation
import DeviceSnapshot.Proofs.Table.Dispatch
import DeviceSnapshot.Proofs.Printing.Bytes
import DeviceSnapshot.Proofs.Table.Validation
import DeviceSnapshot.Proofs.Table.Patterns
import DeviceSnapshot.Proofs.Json.Nesting
import DeviceSnapshot.Proofs.Json.Names
import DeviceSnapshot.Proofs.Record.CanonicalText
