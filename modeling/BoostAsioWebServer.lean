import BoostAsioWebServer.Lib.Feed
import BoostAsioWebServer.Lib.Runs
import BoostAsioWebServer.Lib.SortedMap
import BoostAsioWebServer.Lib.GreedyPattern
import BoostAsioWebServer.Interface
import BoostAsioWebServer.Agents.RequestGrammar
import BoostAsioWebServer.Agents.RequestParserReads
import BoostAsioWebServer.Agents.RequestParserAccepts
import BoostAsioWebServer.Agents.BodyFraming
import BoostAsioWebServer.Services.RequestURIParserService
import BoostAsioWebServer.Services.RequestTarget
import BoostAsioWebServer.Connections.Connection
import BoostAsioWebServer.Connections.Serving
import BoostAsioWebServer.Connections.Gate
import BoostAsioWebServer.Connections.ResponseText
import BoostAsioWebServer.BaseServer
import BoostAsioWebServer.ServerLifecycle
import BoostAsioWebServer.ServerIsolation
import BoostAsioWebServer.Agents.NumericFields
import BoostAsioWebServer.Services.RequestURIDecoding
import BoostAsioWebServer.Services.QueryItems
import BoostAsioWebServer.Agents.HeadBoundary
import BoostAsioWebServer.Lib.PrefixCode
import BoostAsioWebServer.Agents.BodyUtf8
import BoostAsioWebServer.Agents.ParserReuse
import BoostAsioWebServer.Services.ReplyDecoder
import BoostAsioWebServer.Services.CORSDecoration
import BoostAsioWebServer.Services.RequestDispatch
import BoostAsioWebServer.Agents.BodyPhase
import BoostAsioWebServer.ServerEndpoint
import BoostAsioWebServer.Services.QueryString
import BoostAsioWebServer.Connections.ReadParts
import BoostAsioWebServer.ServerConcurrency
import BoostAsioWebServer.ServerInterleaving
import BoostAsioWebServer.ServerProgress
import BoostAsioWebServer.SecuredServer
import BoostAsioWebServer.ServerDestruction
import BoostAsioWebServer.ServerLifetime
import BoostAsioWebServer.Exchange
import BoostAsioWebServer.ServerRefinement
import BoostAsioWebServer.ServerAvailability
import BoostAsioWebServer.ServerStorage
import BoostAsioWebServer.Agents.RequestParserVerdicts
import BoostAsioWebServer.ServerVerdicts
import BoostAsioWebServer.ServerHeld
import BoostAsioWebServer.ServerStall
import BoostAsioWebServer.ServerExceptions
