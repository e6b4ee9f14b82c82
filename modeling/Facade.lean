import Facade.Runs
import Facade.Recency
import Facade.Strings
import Facade.InMemoryCache
import Facade.CacheHistory
import Facade.Eviction
import Facade.Http
import Facade.ServerSession
import Facade.AppConfig
import Facade.ClientSession
import Facade.ClientCalls
import Facade.Calendar
import Facade.Streams
import Facade.Timestamps
import Facade.Query
import Facade.Configuration
import Facade.Company
import Facade.CacheInterface
import Facade.Backendify
import Facade.ClientRequests
import Facade.ServiceRuns
import Facade.ActiveFlag
import Facade.Connection
import Facade.SlaMisses
import Facade.FormQuery
import Facade.BackendReplies
import Facade.ClientPhases
import Facade.DiagnosticTimer
import Facade.ResponseQueue
import Facade.HttpServer
import Facade.RedisCache
import Facade.BreakerRuns
import Facade.Persistence
import Facade.EncodedQuery
import Facade.UrlDecoding
import Facade.LooseTimestamps
import Facade.ConfigFile
import Facade.BackendUrls
import Facade.CommandLine
import Facade.IntegerSettings
import Facade.CacheLifetimes
import Facade.CompanyContract
import Facade.CallOutcomes
import Facade.Cancellation
import Facade.Exchanges
import Facade.Frontend
import Facade.FrontendRuns
import Facade.FrontendAnswers
import Facade.FrontendLife
import Facade.Batching
import Facade.Decimals
import Facade.UDPSender
import Facade.UDPSenderRuns
import Facade.StatsDClient
import Facade.Metrics
import Facade.MetricsRuns
import Facade.Program
import Facade.ProgramRuns
import Facade.ProgramAnswers
import Facade.ProgramShutdown
import Facade.ProgramBreaker
import Facade.Ownership
import Facade.Singletons
