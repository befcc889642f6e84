import DlepRouter.Check.Reads
import DlepRouter.Discovery.Retries
import DlepRouter.Main.Heartbeat
import DlepRouter.Main.Modem
import DlepRouter.Parse.Addresses
import DlepRouter.Parse.Numbers
import DlepRouter.Router.Modems
import DlepRouter.Router.Sockets
import DlepRouter.Session.Answers
import DlepRouter.Session.Destinations
import DlepRouter.Session.Handshake
import DlepRouter.Session.Isolation
import DlepRouter.Session.Lasting
import DlepRouter.Session.Opening
import DlepRouter.Session.Reads
import DlepRouter.Session.Timeouts
