import Tun2Proxy.Lib.BigEndian
import Tun2Proxy.Lib.Checked
import Tun2Proxy.Lib.Maps
import Tun2Proxy.Lib.LruCache
import Tun2Proxy.Lib.Lines
import Tun2Proxy.Lib.Replay
import Tun2Proxy.Lib.Fallible
import Tun2Proxy.Lib.Decoder
import Tun2Proxy.Lib.Pieces
import Tun2Proxy.Lib.Scanner
import Tun2Proxy.Lib.Interaction
import Tun2Proxy.Lib.Correlation
import Tun2Proxy.Lib.Watch
import Tun2Proxy.Lib.Walk
import Tun2Proxy.Str
import Tun2Proxy.Net.IpAddr
import Tun2Proxy.Net.Arithmetic
import Tun2Proxy.Net.SocketAddr
import Tun2Proxy.Net.Address
import Tun2Proxy.VirtualDns.Persistence
import Tun2Proxy.VirtualDns.Resolver
import Tun2Proxy.VirtualDns.Steps
import Tun2Proxy.VirtualDns.Table
import Tun2Proxy.VirtualDns.Recycling
import Tun2Proxy.VirtualDns.JsonRecords
import Tun2Proxy.VirtualDns.Journal
import Tun2Proxy.VirtualDns.Faults
import Tun2Proxy.VirtualDns.Growth
import Tun2Proxy.VirtualDns.TornTail
import Tun2Proxy.Udpgw.Packet
import Tun2Proxy.Udpgw.Reader
import Tun2Proxy.Udpgw.AsyncStream
import Tun2Proxy.Udpgw.Server
import Tun2Proxy.Udpgw.Delivery
import Tun2Proxy.Udpgw.SessionTable
import Tun2Proxy.Proxy.Handler
import Tun2Proxy.Proxy.Session
import Tun2Proxy.Proxy.Permits
import Tun2Proxy.Icmp.Framing
import Tun2Proxy.Icmp.Echo
import Tun2Proxy.Socks.Messages
import Tun2Proxy.Socks.Handshake
import Tun2Proxy.Socks.Soundness
import Tun2Proxy.Socks.Completeness
import Tun2Proxy.Http.Response
import Tun2Proxy.Http.Connection
import Tun2Proxy.Http.Fragmentation
import Tun2Proxy.Http.Tunnel
import Tun2Proxy.Http.ContentLength
import Tun2Proxy.Http.BodySkip
import Tun2Proxy.Http.HeaderOrder
import Tun2Proxy.Http.Reset
import Tun2Proxy.Dns.Message
import Tun2Proxy.Dns.Cname
import Tun2Proxy.Direct.Resolver
import Tun2Proxy.Dns.Wire
import Tun2Proxy.Dns.Transactions
import Tun2Proxy.Dns.Session
import Tun2Proxy.Dns.Relay
import Tun2Proxy.UdpBypass.Pool
import Tun2Proxy.UdpBypass.Isolation
import Tun2Proxy.UdpBypass.Capacity
import Tun2Proxy.Process.Policy
import Tun2Proxy.Process.Names
import Tun2Proxy.Process.Matcher
import Tun2Proxy.Api.Lifecycle
import Tun2Proxy.DnsRouting.Trace
import Tun2Proxy.DnsRouting.Losses
import Tun2Proxy.Lib.Utf16
import Tun2Proxy.Lib.OnesComplement
import Tun2Proxy.DnsRouting.Events
import Tun2Proxy.DnsRouting.Origins
import Tun2Proxy.Windows.Network
import Tun2Proxy.Windows.Transaction
import Tun2Proxy.Windows.RouteSelection
import Tun2Proxy.Windows.Restore
import Tun2Proxy.Windows.InterfaceFlags
import Tun2Proxy.Windows.Monitor
import Tun2Proxy.Windows.Ownership
import Tun2Proxy.Windows.Barrier
import Tun2Proxy.Windows.Protocol
import Tun2Proxy.Windows.CommandLine
import Tun2Proxy.Udpgw.Client
import Tun2Proxy.Udpgw.CleanPool
import Tun2Proxy.Lib.Channel
import Tun2Proxy.Udpgw.Link
import Tun2Proxy.Udpgw.EndToEnd
import Tun2Proxy.VirtualDns.Query
import Tun2Proxy.Socks.Request4
import Tun2Proxy.Socks.UdpRelay
import Tun2Proxy.VirtualDns.Lifetime
import Tun2Proxy.Forwarding.Routes
import Tun2Proxy.Forwarding.Questions
import Tun2Proxy.Forwarding.FakeAddresses
