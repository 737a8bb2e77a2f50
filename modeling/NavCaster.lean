import NavCaster.Library.Lease
import NavCaster.Relay.Master
import NavCaster.Relay.Executor
import NavCaster.Relay.Refresh
import NavCaster.Relay.Stop
import NavCaster.Relay.Converge
import NavCaster.Core.Kick
import NavCaster.Core.Eviction
import NavCaster.Base.Framing
import NavCaster.Core.Upstream
import NavCaster.Core.Nearby
import NavCaster.Core.PolicyRefresh
import NavCaster.Core.AliasConflict
import NavCaster.Core.Attachments
import NavCaster.Core.Mirror
import NavCaster.Core.FailedRegistration
import NavCaster.Http.StaticFiles
import NavCaster.Session.Nearest
import NavCaster.Session.Reconnect
import NavCaster.Session.Handshake
import NavCaster.Service.Dispatch
import NavCaster.Auth.Limit
import NavCaster.Auth.Administration
import NavCaster.Auth.Answers
import NavCaster.Base.Bits
import NavCaster.Base.Completeness
import NavCaster.Core.Rover
import NavCaster.Http.Login
import NavCaster.Http.Sse
import NavCaster.Http.SystemEvents
import NavCaster.Service.BasicAuth
import NavCaster.Service.Ownership
import NavCaster.Base.Extraction
import NavCaster.Service.Queue
import NavCaster.Base.Layout
import NavCaster.Base.Rfc4648
import NavCaster.Base.ConnectKey
import NavCaster.Base.Resync
import NavCaster.Core.Membership
import NavCaster.Core.SourceTable
import NavCaster.Core.SourceText
import NavCaster.Session.ChunkSizes
import NavCaster.Service.Latlon
import NavCaster.Service.PushRequest
import NavCaster.Service.HeaderLines
import NavCaster.Session.TransferEncoding
import NavCaster.Session.PushLink
import NavCaster.Session.PushTask
import NavCaster.Http.Audit
import NavCaster.Http.AuditPages
import NavCaster.Http.Api
import NavCaster.Http.Store
import NavCaster.Http.Statistics
import NavCaster.Core.Compensation
import NavCaster.Core.NodeHistory
import NavCaster.Service.License
import NavCaster.Service.RegisterModes
import NavCaster.Http.DailyCache
import NavCaster.Library.Calendar
import NavCaster.Auth.LoginMaps
import NavCaster.Service.ExpiryDate
import NavCaster.Library.Double
import NavCaster.Library.Window
import NavCaster.Base.MessageInterval
import NavCaster.Core.Traffic
