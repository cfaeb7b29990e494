import MuduoChat.LabelledRuns
import MuduoChat.RestingRuns
import MuduoChat.OrderedSets
import MuduoChat.SetHistories
import MuduoChat.FrameStreams
import MuduoChat.HostByteOrder
import MuduoChat.CivilTime
import MuduoChat.CStrings
import MuduoChat.ChatProtocol
import MuduoChat.SessionManager
import MuduoChat.ServerReplies
import MuduoChat.SessionRouting
import MuduoChat.ChatCodec
import MuduoChat.ChatCodecStreams
import MuduoChat.TLVCodec
import MuduoChat.TLVStreams
import MuduoChat.MessageWrapper
import MuduoChat.WireFormat
import MuduoChat.WireMessages
import MuduoChat.CallPrograms
import MuduoChat.KeyedTables
import MuduoChat.Database
import MuduoChat.MySQLRepos
import MuduoChat.SqlTexts
import MuduoChat.SqlPatterns
import MuduoChat.RepoQueries
import MuduoChat.UserQueries
import MuduoChat.FriendConsent
import MuduoChat.RoomSequences
import MuduoChat.MessageDelivery
import MuduoChat.Services
import MuduoChat.ChatServer
import MuduoChat.ChatServerSteps
import MuduoChat.InputDialogues
import MuduoChat.LiveRoutes
import MuduoChat.LogoutOrder
import MuduoChat.TaskCalls
import MuduoChat.RequestHistories
import MuduoChat.Attribution
import MuduoChat.InterleavedPrograms
import MuduoChat.MySQLPool
import MuduoChat.PoolOwnership
import MuduoChat.PoolRuns
import MuduoChat.PoolLosses
import MuduoChat.ThreadPool
import MuduoChat.ExpiringStores
import MuduoChat.RedisSessionRepo
import MuduoChat.RedisPool
import MuduoChat.RedisPubSub
import MuduoChat.TokenPhases
import MuduoChat.TokenRevocation
import MuduoChat.TokenOrigins
import MuduoChat.SessionLifetimes
import MuduoChat.RoutingSteps
import MuduoChat.RedisRouting
import MuduoChat.SessionBackends
import MuduoChat.ChatNodes
import MuduoChat.NodeRest
import MuduoChat.NodeTokens
import MuduoChat.ServerCaches
import MuduoChat.RelationHistories
import MuduoChat.TaskStatements
import MuduoChat.NodeUsers
import MuduoChat.KeptRows
import MuduoChat.Registrations
import MuduoChat.RoomTables
import MuduoChat.NodeRooms
import MuduoChat.RestartedRooms
import MuduoChat.RoomHistories
import MuduoChat.RoomOwnership
import MuduoChat.MessageThreads
import MuduoChat.MessageAddresses
import MuduoChat.MessageRecalls
import MuduoChat.RepeatedRecalls
import MuduoChat.StoredMessages
import MuduoChat.RecallWindows
import MuduoChat.MessageTexts
import MuduoChat.DelayedCaches
import MuduoChat.FriendLinks
import MuduoChat.FriendLists
import MuduoChat.FriendRequests
import MuduoChat.NodeFriends
import MuduoChat.FriendRuns
import MuduoChat.NodeOrder
import MuduoChat.NodeRequests
import MuduoChat.ServerMirrors
import MuduoChat.MessageRows
import MuduoChat.SenderOrder
import MuduoChat.MessageOrigins
import MuduoChat.RecallAudience
import MuduoChat.FriendFailures
import MuduoChat.SenderEchoes
import MuduoChat.MessageAudience
import MuduoChat.RelaySizes
import MuduoChat.ConsoleInput
import MuduoChat.ConsoleClient
import MuduoChat.EndOfInput
import MuduoChat.ConsoleFriends
import MuduoChat.OfflinePushes
import MuduoChat.SessionEndings
import MuduoChat.BenchmarkStats
import MuduoChat.BenchmarkSlots
import MuduoChat.BenchmarkLogins
