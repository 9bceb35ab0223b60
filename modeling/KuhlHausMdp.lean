import KuhlHausMdp.Library.Transition
import KuhlHausMdp.Library.Dict
import KuhlHausMdp.Library.Glob
import KuhlHausMdp.Library.Value
import KuhlHausMdp.Library.Replacing
import KuhlHausMdp.Library.WorkQueue
import KuhlHausMdp.Library.TopK
import KuhlHausMdp.Library.SortedSet
import KuhlHausMdp.Enum
import KuhlHausMdp.MarketDay
import KuhlHausMdp.WidgetDataService.Registry
import KuhlHausMdp.WidgetDataService.Calls
import KuhlHausMdp.WidgetDataService.Membership
import KuhlHausMdp.WidgetDataService.RedisFailure
import KuhlHausMdp.WidgetDataService.FanOut
import KuhlHausMdp.MarketDataCache.Fetching
import KuhlHausMdp.MarketDataCache.Coordination
import KuhlHausMdp.MarketDataCache.NegativeCaching
import KuhlHausMdp.MarketDataCache.SingleFlight
import KuhlHausMdp.LeaderboardAnalyzer.Store
import KuhlHausMdp.LeaderboardAnalyzer.Latest
import KuhlHausMdp.LeaderboardAnalyzer.TopVolume
import KuhlHausMdp.LeaderboardAnalyzer.TopPercent
import KuhlHausMdp.LeaderboardAnalyzer.DayReset
import KuhlHausMdp.LeaderboardAnalyzer.Tasks
import KuhlHausMdp.DailyRangeAnalyzer.Analyzer
import KuhlHausMdp.DailyRangeAnalyzer.Extremes
import KuhlHausMdp.DailyRangeAnalyzer.DayBoundary
import KuhlHausMdp.Library.Since
import KuhlHausMdp.DailyRangeAnalyzer.Alerts
import KuhlHausMdp.DailyRangeAnalyzer.Rehydrate
import KuhlHausMdp.DailyRangeAnalyzer.Restart
import KuhlHausMdp.DailyRangeAnalyzer.StaleDay
import KuhlHausMdp.DataProcessor.Connect
import KuhlHausMdp.MarketDataScanner.Pubsub
import KuhlHausMdp.DataProcessor.Shutdown
import KuhlHausMdp.LeaderboardAnalyzer.Sequential
import KuhlHausMdp.Library.Period
import KuhlHausMdp.Eastern
import KuhlHausMdp.TopStocksAnalyzer.Analyzer
import KuhlHausMdp.TradingDay
import KuhlHausMdp.LeaderboardAnalyzer.OpenReset
import KuhlHausMdp.LeaderboardAnalyzer.CleanReset
import KuhlHausMdp.LeaderboardAnalyzer.FailedReset
import KuhlHausMdp.WebSocketMessageSerde
import KuhlHausMdp.MassiveDataQueues
import KuhlHausMdp.Library.Redis
import KuhlHausMdp.RollingList
import KuhlHausMdp.TopTradesAnalyzer.Statistics
import KuhlHausMdp.TopTradesAnalyzer.ActiveSymbols
import KuhlHausMdp.TopTradesAnalyzer.ArrivalOrder
import KuhlHausMdp.MarketDataCache.Waiters
import KuhlHausMdp.MarketDataCache.Cleanup
import KuhlHausMdp.MarketDataScanner.Restart
import KuhlHausMdp.WidgetDataService.Isolation
import KuhlHausMdp.WidgetDataService.EventLoop
import KuhlHausMdp.WidgetDataService.Polling
import KuhlHausMdp.TopStocksAnalyzer.CacheItem
import KuhlHausMdp.Library.StableSort
import KuhlHausMdp.TopStocksAnalyzer.Representation
import KuhlHausMdp.TopStocksAnalyzer.Healing
import KuhlHausMdp.Library.Regex
import KuhlHausMdp.Library.Decimal
import KuhlHausMdp.Library.Binary64
import KuhlHausMdp.FinlightDataAnalyzer.RawTickers
import KuhlHausMdp.FinlightDataAnalyzer.Analyzer
import KuhlHausMdp.LeaderboardAnalyzer.Update
import KuhlHausMdp.LeaderboardAnalyzer.Expiry
import KuhlHausMdp.LeaderboardAnalyzer.Poison
import KuhlHausMdp.DataProcessor.Accounting
import KuhlHausMdp.WidgetDataService.Dispatch
import KuhlHausMdp.LeaderboardAnalyzer.Publish
import KuhlHausMdp.LeaderboardAnalyzer.HashExpiry
import KuhlHausMdp.LeaderboardAnalyzer.HashValues
import KuhlHausMdp.FinlightDataListener.Lifecycle
import KuhlHausMdp.MassiveDataListener.Lifecycle
import KuhlHausMdp.MassiveDataListener.Shutdown
import KuhlHausMdp.FinlightDataListener.Budget
import KuhlHausMdp.Serde
import KuhlHausMdp.Library.Mailbox
import KuhlHausMdp.ProcessManager
import KuhlHausMdp.WidgetDataService.Gauge
import KuhlHausMdp.DailyRangeAnalyzer.Naming
import KuhlHausMdp.DataQueues
import KuhlHausMdp.Library.CommandLog
import KuhlHausMdp.Library.Expiry
import KuhlHausMdp.MassiveDataQueues.Accounting
import KuhlHausMdp.FinlightDataQueues
import KuhlHausMdp.FinlightSimpleListener
import KuhlHausMdp.FinlightSimpleListener.Accounting
import KuhlHausMdp.FinlightSimpleListener.Lifecycle
import KuhlHausMdp.NewsFeed
import KuhlHausMdp.ProcessManager.Lifecycle
import KuhlHausMdp.ProcessManager.StopAll
import KuhlHausMdp.Library.Lease
import KuhlHausMdp.TopTradesAnalyzer.Publishing
import KuhlHausMdp.MassiveDataAnalyzer
import KuhlHausMdp.MarketFeed
import KuhlHausMdp.Library.Produced
import KuhlHausMdp.NewsIngestion
import KuhlHausMdp.Library.CutShort
import KuhlHausMdp.TopStocksFeed
