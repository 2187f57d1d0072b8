import FreifunkManager.Math.Rounding
import FreifunkManager.Math.Binary64
import FreifunkManager.Effects.Program
import FreifunkManager.Effects.Workers
import FreifunkManager.Effects.Knowledge
import FreifunkManager.Shell.Reader
import FreifunkManager.Shell.Quoting
import FreifunkManager.Store.Table
import FreifunkManager.Model.Channel
import FreifunkManager.Model.Address
import FreifunkManager.Model.Node
import FreifunkManager.Model.Manager
import FreifunkManager.Model.Operations
import FreifunkManager.Model.SshUpdate
import FreifunkManager.Model.InsertNode
import FreifunkManager.Model.Websocket
import FreifunkManager.Model.System
import FreifunkManager.Proofs.Programs
import FreifunkManager.Proofs.Worlds
import FreifunkManager.Proofs.ManagerBlacklist
import FreifunkManager.Model.Device
import FreifunkManager.Proofs.CommandTexts
import FreifunkManager.Proofs.DeviceCommands
import FreifunkManager.Proofs.UpdateRuns
import FreifunkManager.Proofs.DeviceUpdate
import FreifunkManager.Proofs.DeviceSettings
import FreifunkManager.Proofs.Reconcile
import FreifunkManager.Proofs.Interleaving
import FreifunkManager.Proofs.Desired
import FreifunkManager.Proofs.Observed
import FreifunkManager.Proofs.Broadcast
import FreifunkManager.Proofs.Dialled
import FreifunkManager.Proofs.Serving
import FreifunkManager.Proofs.OwnSession
import FreifunkManager.Proofs.Sessions
import FreifunkManager.Proofs.Strangers
import FreifunkManager.Proofs.LeftAlone
import FreifunkManager.Proofs.OwnRow
import FreifunkManager.Proofs.MissingParts
import FreifunkManager.Model.Socket
import FreifunkManager.Store.WaitingLine
import FreifunkManager.Proofs.ClientSocket
import FreifunkManager.Proofs.MessageOrder
import FreifunkManager.Model.Pinger
import FreifunkManager.Proofs.PingRound
import FreifunkManager.Proofs.Edits
import FreifunkManager.Effects.WholeWrites
import FreifunkManager.Model.Clients
import FreifunkManager.Proofs.Undone
import FreifunkManager.Proofs.Reload
import FreifunkManager.Proofs.EditReload
import FreifunkManager.Proofs.ReportReload
import FreifunkManager.Proofs.LastSeen
import FreifunkManager.Proofs.FailingUpdate
import FreifunkManager.Proofs.Repair
import FreifunkManager.Effects.Histories
import FreifunkManager.Model.MapOrder
import FreifunkManager.Model.SshClient
import FreifunkManager.Proofs.SshClient
import FreifunkManager.Proofs.LostConnection
import FreifunkManager.Proofs.UpdateCommands
import FreifunkManager.Proofs.Replies
import FreifunkManager.Proofs.Announced
import FreifunkManager.Proofs.AddressChoice
import FreifunkManager.Proofs.FreshNode
import FreifunkManager.Model.Dispatch
import FreifunkManager.Proofs.Answers
import FreifunkManager.Model.InPlace
import FreifunkManager.Proofs.Refused
import FreifunkManager.Model.ListView
import FreifunkManager.Proofs.RowInputs
import FreifunkManager.Model.Bodies
import FreifunkManager.Proofs.OtherSettings
import FreifunkManager.Proofs.ReportedChannels
import FreifunkManager.Model.Debouncer
import FreifunkManager.Proofs.Debounced
import FreifunkManager.Model.ClientStore
import FreifunkManager.Proofs.PingHistory
import FreifunkManager.Order.Comparator
import FreifunkManager.Model.NodeTable
import FreifunkManager.Proofs.SortedRows
import FreifunkManager.Model.Decoding
import FreifunkManager.Proofs.RoundTrip
import FreifunkManager.Model.Controls
import FreifunkManager.Proofs.Untouched
import FreifunkManager.Store.Copies
import FreifunkManager.Model.Login
import FreifunkManager.Proofs.PageSession
import FreifunkManager.Model.Replica
import FreifunkManager.Proofs.Replicas
import FreifunkManager.Model.PingDelivery
import FreifunkManager.Proofs.PingDelivery
import FreifunkManager.Proofs.Authorised
import FreifunkManager.Proofs.Provenance
import FreifunkManager.Model.Fleet
import FreifunkManager.Proofs.Fleet
import FreifunkManager.Proofs.Entered
import FreifunkManager.Model.NodeView
import FreifunkManager.Proofs.NodeView
import FreifunkManager.Model.Rendering
import FreifunkManager.Proofs.Rendering
import FreifunkManager.Effects.Isolation
import FreifunkManager.Proofs.Isolation
import FreifunkManager.Proofs.LoggedOut
import FreifunkManager.Effects.Crashes
import FreifunkManager.Proofs.Crashes
import FreifunkManager.Model.PingLoop
import FreifunkManager.Proofs.Draining
import FreifunkManager.Proofs.PingLoop
