import DreamHeroes.Lib.Machine
import DreamHeroes.Lib.OrdMap
import DreamHeroes.Lib.LocalTime
import DreamHeroes.Gate.UserManager
import DreamHeroes.Gate.MapInvariant
import DreamHeroes.Gate.KickFinal
import DreamHeroes.GameServer.GateManager
import DreamHeroes.GameServer.SessionLink
import DreamHeroes.GameServer.Roster
import DreamHeroes.GameServer.MinuteEvent
import DreamHeroes.GameServer.DayRefresh
import DreamHeroes.GameServer.Owners
import DreamHeroes.GameServer.Isolation
import DreamHeroes.Link.OnlineAgreement
import DreamHeroes.Link.Closing
import DreamHeroes.Link.ClosingSaves
import DreamHeroes.Login.Grants
import DreamHeroes.Login.Mails
import DreamHeroes.Link.Authentic
import DreamHeroes.Link.OneSession
import DreamHeroes.Net.TcpServer
import DreamHeroes.Net.ClosedOnce
import DreamHeroes.DB.DBQuest
import DreamHeroes.DB.HeroCreate
import DreamHeroes.DB.ReadYourWrites
import DreamHeroes.Hero.SaveAtLogout
import DreamHeroes.Hero.Deals
import DreamHeroes.Hero.Payment
import DreamHeroes.Hero.CreditOnce
import DreamHeroes.Hero.VerifyRow
import DreamHeroes.Config.GameDay
import DreamHeroes.Rank.RankManager
import DreamHeroes.Rank.RankInvariant
import DreamHeroes.Rank.RemoveHero
import DreamHeroes.Config.GameConfig
import DreamHeroes.Hero.LoadHero
import DreamHeroes.Hero.RoundTrip
import DreamHeroes.Hero.Requests
import DreamHeroes.Hero.Answers
import DreamHeroes.Hero.ExitGame
import DreamHeroes.Hero.ClientRequests
import DreamHeroes.Hero.Solvency
import DreamHeroes.Hero.HeroRun
import DreamHeroes.Hero.RequestEffects
import DreamHeroes.Hero.EntryToken
import DreamHeroes.Hero.DailyQuota
import DreamHeroes.Hero.DailyPrize
import DreamHeroes.Rank.RankStatements
import DreamHeroes.Rank.Restart
import DreamHeroes.Hero.PrizeOnce
import DreamHeroes.Hero.ChapterProgress
import DreamHeroes.Hero.Kept
import DreamHeroes.Hero.Lotions
import DreamHeroes.Hero.TaskList
import DreamHeroes.Promotion.ShopSales
import DreamHeroes.Promotion.Accumulators
import DreamHeroes.Promotion.Outcomes
import DreamHeroes.Promotion.Timers
import DreamHeroes.Promotion.Bookkeeping
import DreamHeroes.Promotion.Steps
import DreamHeroes.Promotion.Windows
import DreamHeroes.Promotion.AbsoluteTime
import DreamHeroes.Common.Crypt
import DreamHeroes.Login.LoginServer
import DreamHeroes.Login.Tables
import DreamHeroes.Login.Replies
import DreamHeroes.Login.TransIds
import DreamHeroes.Login.Verification
import DreamHeroes.GameServer.Commands
import DreamHeroes.Login.Reuse
import DreamHeroes.DB.SqlText
import DreamHeroes.GameServer.World
import DreamHeroes.GameServer.Dispatch
import DreamHeroes.GameServer.GMLevel
import DreamHeroes.GameServer.RecordManager
import DreamHeroes.Lib.Batches
import DreamHeroes.Lib.MapCursor
import DreamHeroes.Lib.Bytes
import DreamHeroes.Net.Message
import DreamHeroes.Net.Framing
import DreamHeroes.Common.Base64
import DreamHeroes.Net.FrameCodec
import DreamHeroes.Net.ThreadBuffer
import DreamHeroes.Net.Envelope
import DreamHeroes.Lib.DoubleQueue
import DreamHeroes.Net.Queues
import DreamHeroes.Net.SendQueue
import DreamHeroes.Hero.DayRefresh
import DreamHeroes.Hero.SpiritRecovery
import DreamHeroes.Hero.LotteryDraw
import DreamHeroes.Hero.HeroGrid
import DreamHeroes.Hero.DailyProgress
import DreamHeroes.Hero.RefreshCooldown
import DreamHeroes.Hero.TaskPrice
import DreamHeroes.Hero.GoldLedger
import DreamHeroes.Hero.SqlBuffers
import DreamHeroes.Common.HttpManager
import DreamHeroes.Net.Bans
import DreamHeroes.DB.Pipeline
import DreamHeroes.DB.Conservation
import DreamHeroes.DB.Shutdown
import DreamHeroes.Common.EventTable
import DreamHeroes.Common.EventOwnership
import DreamHeroes.Common.TimerAccuracy
import DreamHeroes.Common.PendingEvents
import DreamHeroes.Common.EventRemoval
import DreamHeroes.Gate.KeepAlive
import DreamHeroes.Gate.KeepAliveRuns
import DreamHeroes.Common.UpdateEnds
import DreamHeroes.Common.EraseLoops
import DreamHeroes.Lib.Crc
import DreamHeroes.Net.Checksum
import DreamHeroes.Common.Base64Text
import DreamHeroes.Lib.Cuts
import DreamHeroes.Common.UrlCoding
import DreamHeroes.Common.SplitString
import DreamHeroes.GameServer.HeroNames
import DreamHeroes.Lib.Calls
import DreamHeroes.Lib.Switch
import DreamHeroes.Promotion.Recursion
import DreamHeroes.Promotion.LifeCycle
import DreamHeroes.Lib.Fifo
import DreamHeroes.Net.Channel
import DreamHeroes.Net.TcpClient
import DreamHeroes.Net.Muted
import DreamHeroes.Net.Reconnect
