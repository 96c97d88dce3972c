import RamLog.Bytes
import RamLog.Command.Grammar
import RamLog.Command.Line
import RamLog.Command.Log
import RamLog.Command.Run
import RamLog.Command.Stride
import RamLog.Command.Usage
import RamLog.Csv.Reader
import RamLog.Csv.Writer
import RamLog.Dump
import RamLog.Event
import RamLog.Fault
import RamLog.Files
import RamLog.Header
import RamLog.Listing.Details
import RamLog.Listing.Verbatim
import RamLog.Listing.Writing
import RamLog.Main
import RamLog.Noted
import RamLog.Proofs.Bytes
import RamLog.Proofs.Command.Acceptance
import RamLog.Proofs.Command.Arguments
import RamLog.Proofs.Command.FileColumn
import RamLog.Proofs.Command.Outcome
import RamLog.Proofs.Command.Parts
import RamLog.Proofs.Command.Settings
import RamLog.Proofs.Command.Stride
import RamLog.Proofs.Command.Transcript
import RamLog.Proofs.Command.Unwritable
import RamLog.Proofs.Csv.FileColumn
import RamLog.Proofs.Csv.RoundTrip
import RamLog.Proofs.Dump.Layout
import RamLog.Proofs.Dump.Slots
import RamLog.Proofs.Files.FileName
import RamLog.Proofs.Header
import RamLog.Proofs.Listing.Blank
import RamLog.Proofs.Listing.Capacity
import RamLog.Proofs.Listing.Faithful
import RamLog.Proofs.Listing.Numbering
import RamLog.Proofs.Listing.Padding
import RamLog.Proofs.Listing.ReadBack
import RamLog.Proofs.Ring.Recovery
import RamLog.Proofs.Scan.Account
import RamLog.Proofs.Scan.Failure
import RamLog.Proofs.Scan.Format
import RamLog.Proofs.Scan.Influence
import RamLog.Proofs.Scan.Notes
import RamLog.Proofs.Scan.Order
import RamLog.Proofs.Scan.Sequence
import RamLog.Proofs.Scan.Words
import RamLog.Proofs.Text.Ascii
import RamLog.Proofs.Text.Escaped
import RamLog.Proofs.Text.Lines
import RamLog.Proofs.Text.Numerals
import RamLog.Proofs.Text.Readable
import RamLog.Proofs.Text.Utf8
import RamLog.Record
import RamLog.Ring
import RamLog.Scan
import RamLog.Scan.Machine
import RamLog.Sink
import RamLog.Text.Decimal
import RamLog.Text.Escaped
import RamLog.Text.Hexadecimal
import RamLog.Text.Plain
import RamLog.Text.Readable
import RamLog.Text.Utf8
