import Rendezvous.Struct
import Rendezvous.Text
import Rendezvous.Float
import Rendezvous.Double
import Rendezvous.FloatArith
import Rendezvous.Json
import Rendezvous.Numeral
import Rendezvous.JsonCodec
import Rendezvous.PurePath
import Rendezvous.Wire
import Rendezvous.Config
import Rendezvous.Clock
import Rendezvous.Daemon
import Rendezvous.Endpoint
import Rendezvous.Learner
import Rendezvous.Runs
import Rendezvous.Listen
import Rendezvous.Client
import Rendezvous.Discover
import Rendezvous.MainLoop
import Rendezvous.Broadcast
import Rendezvous.Meeting
