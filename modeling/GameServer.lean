import GameServer.FinishOrder
import GameServer.LowestTie
import GameServer.IoPool
import GameServer.SendLimits
import GameServer.QueueDeadlines
import GameServer.UserIsolation
import GameServer.SequenceOrder
import GameServer.AcceptedInputs
import GameServer.EloExact
import GameServer.Reconnect
import GameServer.ServerQueue
import GameServer.ServerResults
import GameServer.ResumeTokens
import GameServer.Realtime
import GameServer.AuthExpiry
import GameServer.Leaderboard
import GameServer.LeaderboardQuery
import GameServer.JoinDeadline
import GameServer.FrameReplies
import GameServer.Passwords
import GameServer.QueryPairs
import GameServer.Coordinator
import GameServer.Metrics
import GameServer.DeliveryOrder
import GameServer.Gateway
import GameServer.History
import GameServer.RatingSpread
import GameServer.Identity
import GameServer.MatchOrder
import GameServer.Replies
import GameServer.SessionSteps
import GameServer.Lockstep
import GameServer.Secrecy
