import Rnet.Lib.ChunkedParser
import Rnet.Lib.FiniteMap
import Rnet.Lib.GuardedRun
import Rnet.Core.QueueRuns
import Rnet.Protocol.Framing
import Rnet.Security.Controller
import Rnet.Security.TagNoise
import Rnet.Security.Replay
import Rnet.Transport.State
import Rnet.Transport.Isolation
import Rnet.Transport.Fifo
import Rnet.Transport.ControlFailure
import Rnet.Transport.DatagramLimits
import Rnet.Transport.DatagramSizes
import Rnet.Transport.DeferredQueues
import Rnet.Transport.KcpBudget
import Rnet.Transport.TcpLimits
import Rnet.Security.Handshake
import Rnet.Transport.Barrier
import Rnet.Transport.UdpAgreement
import Rnet.Transport.Permits
import Rnet.Transport.ResponseCache
import Rnet.Transport.Stopping
import Rnet.Game.KickRace
import Rnet.Game.Residue
import Rnet.Game.Ordering
import Rnet.Game.PollBudget
import Rnet.Game.SendRaces
import Rnet.Transport.Nonces
import Rnet.Game.SchedulerRuns
import Rnet.Transport.RecordReader
import Rnet.Game.Heartbeat
import Rnet.Core.Handles
import Rnet.Transport.Cookies
import Rnet.Game.SchedulerShares
import Rnet.Transport.AdmissionRate
