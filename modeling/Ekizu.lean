import Ekizu.Dave.RoundTrip
import Ekizu.Dave.KeyErasure
import Ekizu.Dave.Interference
import Ekizu.Dave.Expiry
import Ekizu.Dave.StartCodes
import Ekizu.Dave.FailedProposals
import Ekizu.Dave.Roster
import Ekizu.Voice.Delivery
import Ekizu.Voice.Nonces
import Ekizu.Voice.Passthrough
import Ekizu.Voice.Rtp
import Ekizu.Voice.TransportNonces
import Ekizu.Voice.Reconnect
import Ekizu.Voice.Heartbeat
import Ekizu.Voice.MediaClock
import Ekizu.Voice.Close
import Ekizu.Voice.EndToEnd
import Ekizu.Gateway.IntentionalClose
import Ekizu.Gateway.Backoff
import Ekizu.Gateway.DeadConnection
import Ekizu.Gateway.Resume
import Ekizu.Gateway.EventRequests
import Ekizu.Rest.MalformedResponse
import Ekizu.Rest.ConnectionQueue
import Ekizu.Rest.ClientShutdown
import Ekizu.Net.WebSocketReads
import Ekizu.Net.WebSocketWrites
import Ekizu.Net.UdpReceives
import Ekizu.Cache.LruRefinement
import Ekizu.Timer.WakeUps
import Ekizu.Timer.Cancellation
import Ekizu.Components.RoundTrip
import Ekizu.Components.ResponseRoundTrip
import Ekizu.Commands.RoundTrip
import Ekizu.Requests.FormRoundTrip
import Ekizu.Logger
import Ekizu.Components.Destinations
import Ekizu.Requests.EditMessage
import Ekizu.Cache.ValueCategories
import Ekizu.Net.UdpSends
import Ekizu.Dave.ValidateFrame
import Ekizu.Commands.ApplicationCommandData
import Ekizu.Dave.BufferBound
import Ekizu.Lib.JsonEdit
import Ekizu.Components.Covers
import Ekizu.Components.Edits
import Ekizu.Dave.Leb128Pointers
import Ekizu.Dave.RangePointers
import Ekizu.Dave.Bookkeeping
import Ekizu.Dave.NaluSearch
import Ekizu.Dave.NalUnits
import Ekizu.Dave.LongStartCodes
import Ekizu.Dave.ObuWalk
import Ekizu.Dave.Obus
import Ekizu.Dave.ObuRewriting
import Ekizu.Dave.PpsScan
import Ekizu.Dave.SliceHeaders
import Ekizu.Dave.PpsCoverage
import Ekizu.Dave.FrameRoundTrip
import Ekizu.Dave.NalPayloads
import Ekizu.Dave.Packetizer
import Ekizu.Dave.Channel
import Ekizu.Dave.Group
import Ekizu.Lib.Files
import Ekizu.Dave.PersistedKeys
import Ekizu.Dave.LostKeys
import Ekizu.Components.NormalForm
import Ekizu.Messages.Users
import Ekizu.Messages.Embeds
import Ekizu.Messages.Message
import Ekizu.Gateway.MessageShapes
import Ekizu.Lib.Feed
import Ekizu.Gateway.Delivery
import Ekizu.Gateway.ExactlyOnce
import Ekizu.Dave.Rekeying
