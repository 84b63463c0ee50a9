import Hysteria.Lib.Exec
import Hysteria.Lib.PartialMap
import Hysteria.Lib.Utf8
import Hysteria.Core.Varint
import Hysteria.Core.Frag
import Hysteria.Core.Defragger
import Hysteria.Core.DefraggerRun
import Hysteria.Core.UdpMessage
import Hysteria.Core.DefraggerInvariant
import Hysteria.Core.Reassembly
import Hysteria.Core.PacketReuse
import Hysteria.Extras.Salamander
import Hysteria.Core.ObfsSocket
import Hysteria.Core.ObfsRecv
import Hysteria.Core.ObfsRoundtrip
import Hysteria.Core.ClientUdp
import Hysteria.Core.ClientUdpClose
import Hysteria.Core.ServerUdp
import Hysteria.Core.ServerUdpClose
import Hysteria.App.UdpForwarding
import Hysteria.App.UdpForwardingTeardown
import Hysteria.Mobile.Controller
import Hysteria.Mobile.StaleMessages
import Hysteria.Core.UdpMessageCodec
import Hysteria.Core.TcpFrames
import Hysteria.Core.RuntimeIo
import Hysteria.Mobile.SessionSteps
import Hysteria.Mobile.Sessions
import Hysteria.App.Socks5Udp
import Hysteria.Mobile.LocalSocksUdp
import Hysteria.Core.LimitedSends
import Hysteria.Lib.Inbound
import Hysteria.Lib.Text
import Hysteria.App.HttpFraming
import Hysteria.App.HttpProxy
import Hysteria.App.HttpRequests
import Hysteria.App.HttpServed
import Hysteria.Core.LimiterRuns
import Hysteria.Core.Auth
import Hysteria.Quinn.Pacer
import Hysteria.Core.Handshake
import Hysteria.Core.ClientUdpIsolation
import Hysteria.Lib.Session
import Hysteria.Extras.Speedtest
import Hysteria.Lib.Percent
import Hysteria.Lib.Url
import Hysteria.App.ShareUri
import Hysteria.Mobile.ImportUri
import Hysteria.Core.ClientTunnel
import Hysteria.Mobile.LocalSocks
import Hysteria.Mobile.RequestFailures
import Hysteria.Core.ClientUdpHandles
import Hysteria.Core.ServerUdpIdle
import Hysteria.App.HttpReadAhead
import Hysteria.App.HttpTruncation
import Hysteria.App.HttpReparse
import Hysteria.Lib.IpAddr
import Hysteria.App.Socks5Address
import Hysteria.App.Socks5Destination
import Hysteria.Mobile.SocksAddress
import Hysteria.Mobile.SocksHandshake
import Hysteria.App.HttpTarget
import Hysteria.Core.Relay
import Hysteria.Core.VarintCodec
import Hysteria.Mobile.DnsProxy
import Hysteria.Lib.SlotRing
import Hysteria.Mobile.DnsResponse
import Hysteria.Quinn.Brutal
import Hysteria.Quinn.PacerDelay
import Hysteria.Quinn.BrutalPacing
import Hysteria.App.Bandwidth
import Hysteria.App.CertPin
import Hysteria.Mobile.ServerName
import Hysteria.Mobile.UserinfoCodec
import Hysteria.Lib.WindowedMax
import Hysteria.Quinn.ExtraAcked
import Hysteria.Quinn.AckHeight
import Hysteria.Quinn.MinMax
import Hysteria.Core.HealthCheck
import Hysteria.Core.TcpTunnelDelivery
import Hysteria.Core.UdpDownstream
import Hysteria.Core.UdpUpstream
import Hysteria.Quinn.BandwidthSampler
import Hysteria.Quinn.Bbr
import Hysteria.Quinn.BbrDelivery
import Hysteria.Quinn.BbrEstimate
import Hysteria.Quinn.BrutalController
import Hysteria.App.HttpConnect
import Hysteria.App.Socks5Connect
import Hysteria.Core.ServedRequests
import Hysteria.Core.ServerConnection
