import Bblib.LabelledRuns
import Bblib.RoundRobin
import Bblib.ExclusiveSections
import Bblib.HexText
import Bblib.FormText
import Bblib.SeparatedText
import Bblib.LineInput
import Bblib.ByteStrings
import Bblib.JsonValue
import Bblib.Common
import Bblib.ErrorClassifiers
import Bblib.RestSession
import Bblib.Beast
import Bblib.IoContexts
import Bblib.Lifecycle
import Bblib.KeyFile
import Bblib.UrlEncode
import Bblib.RestRequests
import Bblib.RequestTargets
import Bblib.RestCallerThreads
import Bblib.WsSession
import Bblib.WsSessionOrder
import Bblib.WsSessionStop
import Bblib.WsSessionReads
import Bblib.HostedRuns
import Bblib.WsProtocol
import Bblib.WsConnection
import Bblib.WsSessions
import Bblib.CombinedStreams
import Bblib.WsLifecycle
import Bblib.WsLifecycleRuns
import Bblib.WsTokenIds
import Bblib.ListenKey
import Bblib.ListenKeyRuns
import Bblib.UserDataSessions
import Bblib.UserDataThreads
import Bblib.ListenKeyReplies
import Bblib.WsDelivery
import Bblib.Client
import Bblib.ClientRequests
import Bblib.ClientSessions
import Bblib.ClientRegistry
import Bblib.ClientHosts
import Bblib.ClientSecrets
import Bblib.RequestText
import Bblib.ErrorMessages
import Bblib.FailureResponses
import Bblib.WsRegistry
import Bblib.WsRegistryIds
import Bblib.WsRegistryStops
import Bblib.ClientContexts
import Bblib.ListenKeyExtender
import Bblib.MarketScanner
