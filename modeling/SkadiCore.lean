import SkadiCore.Mux.FrameStream
import SkadiCore.Mux.Downlink
import SkadiCore.Mux.Sessions
import SkadiCore.Mux.Teardown
import SkadiCore.Mux.Isolation
import SkadiCore.Socks5.Session
import SkadiCore.Udp.Framing
import SkadiCore.Mux.Owners
import SkadiCore.Mux.ConeFrames
import SkadiCore.Reality.ClientSlot
import SkadiCore.Reality.Fallback
import SkadiCore.Server.Accounting
import SkadiCore.Vless.Client
import SkadiCore.Client.Dot
import SkadiCore.Xhttp.Registry
import SkadiCore.Xhttp.StreamUp
import SkadiCore.Server.Inbound
import SkadiCore.Config.Sidecars
import SkadiCore.Config.CertResolver
import SkadiCore.Server.DeadlineRange
import SkadiCore.Server.AuthEscalation
import SkadiCore.Reality.HelloWire
import SkadiCore.Vless.Incomplete
import SkadiCore.Vless.AddonsFormat
import SkadiCore.Client.TunTcp
import SkadiCore.Socks5.Datagram
import SkadiCore.Core.RedactText
import SkadiCore.Core.RedactSecrecy
import SkadiCore.Server.RedactingWriter
import SkadiCore.Xhttp.UploadReader
import SkadiCore.Xhttp.ChunkedEncoder
import SkadiCore.Mux.Delivery
import SkadiCore.Server.ApiRateLimit
import SkadiCore.Client.TunFlows
import SkadiCore.Client.IcmpFragNeeded
import SkadiCore.Config.AwgExport
import SkadiCore.Client.DnsUpstream
import SkadiCore.Client.DohResponse
import SkadiCore.Client.TunRouting
