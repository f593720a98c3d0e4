import ConvoyChat.Lib.Keyset
import ConvoyChat.Lib.Runs
import ConvoyChat.Lib.Rows
import ConvoyChat.Models
import ConvoyChat.Store.RefreshTokens
import ConvoyChat.Store.TokenFamilies
import ConvoyChat.Frontend.MergeKeeps
import ConvoyChat.Lib.Proc
import ConvoyChat.Store.Rooms
import ConvoyChat.Handlers.Rooms
import ConvoyChat.Handlers.RoomAdmins
import ConvoyChat.Lib.ReadCommitted
import ConvoyChat.Store.RoleTx
import ConvoyChat.Store.TokenTx
import ConvoyChat.Frontend.Session
import ConvoyChat.Lib.Chan
import ConvoyChat.Websocket.Handlers
import ConvoyChat.Websocket.Hub
import ConvoyChat.Websocket.Server
import ConvoyChat.Websocket.Lifecycle
import ConvoyChat.Websocket.SendQueue
import ConvoyChat.Websocket.Subscriptions
import ConvoyChat.Websocket.Holders
import ConvoyChat.Websocket.Commands
import ConvoyChat.System.World
import ConvoyChat.System.Departed
import ConvoyChat.Frontend.WebSocket
import ConvoyChat.System.Web
import ConvoyChat.Websocket.JoinOrder
import ConvoyChat.Store.Messages
import ConvoyChat.Frontend.MessagePatches
import ConvoyChat.Frontend.Mutations
import ConvoyChat.Websocket.Delivery
import ConvoyChat.System.Fleet
import ConvoyChat.Handlers.DirectRooms
import ConvoyChat.System.DirectTx
import ConvoyChat.Handlers.Messages
import ConvoyChat.System.Sending
import ConvoyChat.Frontend.Shown
import ConvoyChat.Store.MessageWrites
import ConvoyChat.System.RoomSync
import ConvoyChat.System.Served
import ConvoyChat.System.Resynced
import ConvoyChat.Store.Directory
import ConvoyChat.Handlers.ReadEndpoints
import ConvoyChat.System.Holes
import ConvoyChat.System.Backfill
import ConvoyChat.System.Gaps
import ConvoyChat.System.Traffic
import ConvoyChat.System.Bans
import ConvoyChat.System.Kicks
import ConvoyChat.System.Live
import ConvoyChat.Lib.Registers
import ConvoyChat.System.Overtaking
import ConvoyChat.Store.Presence
import ConvoyChat.System.Presence
import ConvoyChat.Frontend.PresenceStore
import ConvoyChat.System.Observed
import ConvoyChat.Handlers.MessageChanges
import ConvoyChat.System.Outsiders
import ConvoyChat.Frontend.AuthStore
import ConvoyChat.Frontend.Reconnect
import ConvoyChat.Store.ReadCursors
import ConvoyChat.System.Unread
import ConvoyChat.Store.Attendance
import ConvoyChat.System.Reacted
import ConvoyChat.Handlers.Succession
import ConvoyChat.System.Standing
import ConvoyChat.System.Idempotency
import ConvoyChat.Store.IdempotencyKeys
import ConvoyChat.System.Released
import ConvoyChat.System.Deletions
import ConvoyChat.Frontend.Confluence
import ConvoyChat.System.Uncounted
import ConvoyChat.System.Badges
import ConvoyChat.Frontend.Displayed
import ConvoyChat.Frontend.PatchLaws
import ConvoyChat.Handlers.GroupMembers
import ConvoyChat.Store.UserSearch
import ConvoyChat.System.BothSends
import ConvoyChat.Frontend.Timestamps
import ConvoyChat.Lib.JsonString
import ConvoyChat.Frontend.Validation
import ConvoyChat.Frontend.FrameSize
import ConvoyChat.Handlers.ColumnTypes
import ConvoyChat.Lib.Grouping
import ConvoyChat.Store.ReactionGroups
import ConvoyChat.Websocket.Typing
import ConvoyChat.Lib.Work
import ConvoyChat.Websocket.Rest
import ConvoyChat.Websocket.Departures
import ConvoyChat.Lib.Percent
import ConvoyChat.Lib.Rfc3339
import ConvoyChat.System.Queries
import ConvoyChat.Lib.Json
import ConvoyChat.Lib.JsonLiterals
import ConvoyChat.System.Wire
import ConvoyChat.Store.LeaveTx
import ConvoyChat.System.TypingCadence
import ConvoyChat.Lib.RowVersions
import ConvoyChat.Store.ToggleTx
import ConvoyChat.Store.ReadTx
import ConvoyChat.System.Sessions
