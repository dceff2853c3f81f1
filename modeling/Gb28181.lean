import Gb28181.Agreement
import Gb28181.Conf.Found
import Gb28181.Conf.InString
import Gb28181.Conf.LoadIniFile
import Gb28181.Conf.Missing
import Gb28181.Conf.Reported
import Gb28181.Conf.Sections
import Gb28181.Conf.Spans
import Gb28181.Conf.Termination
import Gb28181.Ports
import Gb28181.Registration
import Gb28181.SentFrom
import Gb28181.Sip.Delivery
import Gb28181.Sip.Polling
import Gb28181.Sip.Requests
import Gb28181.Sip.Termination
import Gb28181.Sub.Headers
import Gb28181.Sub.OneClient
import Gb28181.Sub.Refresh
import Gb28181.Sub.Registered
import Gb28181.Sub.TimerStop
import Gb28181.Sup.LastWrite
import Gb28181.Sup.Locks
import Gb28181.Sup.Registry
import Gb28181.Sup.Release
import Gb28181.Sup.Startup
import Gb28181.ThreadPool
