import Ocserv.Lzs.RoundTrip
import Ocserv.Lzs.Leak
import Ocserv.Cstp.Stream
import Ocserv.Ipc.Channel
import Ocserv.SecMod.Authenticated
import Ocserv.SecMod.Accounting
import Ocserv.SecMod.Identity
import Ocserv.SecMod.Cleanup
import Ocserv.Main.Reconnect
import Ocserv.Main.LeaseTable
import Ocserv.PerUser.CookieReply
import Ocserv.PerUser.SupConfig
import Ocserv.Worker.MtuDiscovery
import Ocserv.Worker.UdpFd
import Ocserv.Worker.Http
import Ocserv.Worker.BanPoints
import Ocserv.Worker.Transmit
import Ocserv.Main.BanCleanup
import Ocserv.Main.Resume
import Ocserv.Main.ProcTable
import Ocserv.Main.Gating
import Ocserv.Main.Balance
import Ocserv.Main.WorkerChannel
import Ocserv.Worker.BanReply
import Ocserv.Lzs.Greedy
import Ocserv.Worker.Html
import Ocserv.Worker.Renegotiation
import Ocserv.Main.LeasePool
import Ocserv.Main.SameUser
import Ocserv.SecMod.CookieLifetime
import Ocserv.SecMod.Probe
import Ocserv.SecMod.Pairing
import Ocserv.Passwd.Agree
import Ocserv.Config.Lists
import Ocserv.Main.OwnerSearch
import Ocserv.Worker.Ciphersuite
import Ocserv.SecMod.SubOptions
import Ocserv.Passwd.Groups
import Ocserv.Worker.FormField
import Ocserv.Replace
import Ocserv.Worker.Kkdcp
import Ocserv.Config.Reload
import Ocserv.Ipc.ForceRead
import Ocserv.Main.IrouteRuns
import Ocserv.SecMod.PlainTries
import Ocserv.Worker.Bandwidth
import Ocserv.Worker.Routes
import Ocserv.SecMod.PamConv
import Ocserv.SecMod.RadiusAcct
import Ocserv.SecMod.RadiusAuth
import Ocserv.Worker.TunSend
import Ocserv.Ccan.HtableRuns
import Ocserv.ProtobufC.RoundTrip
import Ocserv.Privsep.InUse
import Ocserv.Privsep.Client
import Ocserv.Worker.HttpHeads
