import EventLog.Main
import EventLog.Proofs.Snapshot.MemberOrder
import EventLog.Proofs.Snapshot.Rewrite
import EventLog.Proofs.Walk.Exact
import EventLog.Proofs.Warp.Exact
import EventLog.Proofs.Store.NormalForm
import EventLog.Proofs.Snapshot.NormalForm
import EventLog.Proofs.Walk.GlobalTime
import EventLog.Proofs.Json.Grammar
import EventLog.Proofs.Json.Phrases
import EventLog.Proofs.Table.Lines
import EventLog.Proofs.Snapshot.Payloads
import EventLog.Proofs.Output.Room
import EventLog.Proofs.Monitor.Refreshes
import EventLog.Proofs.Monitor.Runs
import EventLog.Proofs.Monitor.Room
import EventLog.Proofs.Monitor.Stale
import EventLog.Proofs.Table.Listing
import EventLog.Proofs.Files.Places
import EventLog.Proofs.Command.FileEffects
import EventLog.Proofs.Text.Words
import EventLog.Proofs.Text.Numerals
import EventLog.Proofs.Dump.LineFormat
import EventLog.Proofs.Dump.Layout
import EventLog.Proofs.Text.Alignment
import EventLog.Proofs.Table.Order
import EventLog.Proofs.Warp.Hidden
import EventLog.Proofs.Walk.Sightings
import EventLog.Proofs.Walk.OneNode
import EventLog.Proofs.Walk.SiblingOrder
import EventLog.Proofs.Settings.Document
import EventLog.Proofs.Settings.Precedence
import EventLog.Proofs.Text.Lines
import EventLog.Proofs.Warp.Uniform
import EventLog.Proofs.Warp.Growth
import EventLog.Proofs.Warp.ReportText
import EventLog.Proofs.Json.ExactIntegers
import EventLog.Proofs.Warp.ReportDocument
import EventLog.Proofs.Record.Fields
import EventLog.Proofs.Record.Members
import EventLog.Proofs.Record.Layouts
import EventLog.Proofs.Binary64.Values
import EventLog.Proofs.Record.Counters
import EventLog.Proofs.Store.CanonicalRows
import EventLog.Proofs.Snapshot.PayloadRows
import EventLog.Proofs.Record.AnyOrder
import EventLog.Proofs.Table.ReadColumns
import EventLog.Proofs.Table.TimeColumn
import EventLog.Proofs.Table.Sorted
import EventLog.Proofs.Store.Lossless
