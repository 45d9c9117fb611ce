import Llarp.Iwp.ReplayWindow
import Llarp.Iwp.AckBits
import Llarp.Iwp.Integrity
import Llarp.Iwp.Channel
import Llarp.Service.Binding
import Llarp.Service.Signers
import Llarp.Service.Keys
import Llarp.Link.Announcing
import Llarp.Iwp.Sender.Handlers
import Llarp.Dht.Retirement
import Llarp.Dht.Interference
import Llarp.Dht.Network
import Llarp.Dht.Forwarding
import Llarp.Path.Traffic
import Llarp.Path.Lookup
import Llarp.Path.Workers
import Llarp.Router.MessageAccounts
import Llarp.Router.PendingSessions
import Llarp.Service.IntroSetSigning
import Llarp.Messages.Independence
import Llarp.Contact.Written
import Llarp.Exit.Sessions
import Llarp.Exit.Addresses
import Llarp.Exit.Paths
import Llarp.Net.RewritingV6
import Llarp.Net.TrafficPolicy
import Llarp.Exit.PacketOrder
import Llarp.Net.RangeSets
import Llarp.Dns.RoundTrip
import Llarp.Service.AnonymousLookups
import Llarp.Service.PackedFrames
import Llarp.Dht.Replies
import Llarp.Iwp.ResendOrder
import Llarp.Iwp.Multiacks
import Llarp.Service.Auth
import Llarp.Path.PathSet
import Llarp.Dht.NodeDB
import Llarp.Router.SendOrder
import Llarp.Dns.TextReply
import Llarp.Net.Unreachable
import Llarp.Consensus.ReachabilityTesting
import Llarp.Router.Profiling
