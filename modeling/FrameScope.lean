import FrameScope.Main
import FrameScope.Panel.Reaction
import FrameScope.Settings.Description
import FrameScope.Time.Cursor
import FrameScope.History.Memory
import FrameScope.Proofs.History.Reopen
import FrameScope.Proofs.History.Contract
import FrameScope.Proofs.Collection.Siblings
import FrameScope.Proofs.History.Torn
import FrameScope.Proofs.Insurance.Fetcher
import FrameScope.Proofs.Decimal.Shortest
import FrameScope.Proofs.Json.Float
import FrameScope.Proofs.Node.Settled
import FrameScope.Proofs.Json.Pretty
import FrameScope.Proofs.Node.Keeping
import FrameScope.Proofs.Settings.Document
import FrameScope.Proofs.Settings.Recover
import FrameScope.Proofs.Settings.Stores
import FrameScope.Proofs.Settings.Session
import FrameScope.Proofs.Settings.Foreign
import FrameScope.Proofs.Insurance.Desk
import FrameScope.Proofs.Panel.Run
import FrameScope.Proofs.Node.Kept
import FrameScope.Proofs.Node.Tagged
import FrameScope.Proofs.Panel.Event
import FrameScope.Proofs.Node.Origin
import FrameScope.Proofs.Collection.RoundTrip
import FrameScope.Proofs.Frame.RoundTrip
import FrameScope.Proofs.History.Writers
import FrameScope.Proofs.Command.Import
import FrameScope.Proofs.Command.SavedFilter
import FrameScope.Proofs.Settings.Changes
import FrameScope.Proofs.Settings.Reset
import FrameScope.Proofs.Insurance.Snapshot
import FrameScope.Proofs.Log.Search
import FrameScope.Proofs.Collection.Untyped
import FrameScope.Proofs.Frame.Added
import FrameScope.Proofs.Frame.Builder
import FrameScope.Proofs.Amount.Order
import FrameScope.Proofs.Amount.Document
import FrameScope.Proofs.Log.Selection
import FrameScope.Proofs.Time.Walk
import FrameScope.Proofs.Amount.FixedPoint
import FrameScope.Proofs.Collection.Grouping
import FrameScope.Proofs.Log.Tally
import FrameScope.Proofs.Insurance.Expiry
