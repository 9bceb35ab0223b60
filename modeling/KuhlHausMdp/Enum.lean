/-! Cache lifetimes in seconds, cache keys and list limits. -/

set_option autoImplicit false

namespace KuhlHausMdp

def FIVE_MINUTES : Nat := 300
def ONE_HOUR : Nat := 3600
def SIX_HOURS : Nat := 21600
def EIGHT_HOURS : Nat := 28800
def TWELVE_HOURS : Nat := 43200
def ONE_DAY : Nat := 86400
def TWO_DAYS : Nat := 172800
def FOUR_DAYS : Nat := 345600
def SEVEN_DAYS : Nat := 604800

namespace MarketDataCacheTTL

def NEGATIVE_CACHE_SESSION : Nat := SIX_HOURS
def AGGREGATE : Nat := FIVE_MINUTES
def HALTS : Nat := ONE_DAY
def QUOTES : Nat := ONE_HOUR
def TRADES : Nat := ONE_HOUR
def UNKNOWN : Nat := ONE_DAY
def TICKER_AVG_VOLUME : Nat := TWELVE_HOURS
def TICKER_FREE_FLOAT : Nat := TWELVE_HOURS
def TICKER_SNAPSHOTS : Nat := EIGHT_HOURS
def LEADERBOARD_ANALYZER : Nat := ONE_HOUR

end MarketDataCacheTTL

namespace WidgetDataCacheTTL

def DAILY_RANGE : Nat := FOUR_DAYS
def DAILY_RANGE_ALERT : Nat := EIGHT_HOURS
def NEWS_FEED_LATEST : Nat := TWO_DAYS
def NEWS_TICKER : Nat := SEVEN_DAYS
def TOP_GAINERS_SCANNER : Nat := FOUR_DAYS
def TOP_GAPPERS_SCANNER : Nat := FOUR_DAYS
def TOP_STOCKS_SCANNER : Nat := FOUR_DAYS
def TOP_VOLUME_SCANNER : Nat := FOUR_DAYS

end WidgetDataCacheTTL

namespace FinlightDataCache

def NEWS_FEED_LIST_MAX : Nat := 10000
def NEWS_TICKER_LIST_MAX : Nat := 100

end FinlightDataCache

namespace MarketStatusValue

def CLOSED : String := "closed"

end MarketStatusValue

namespace MarketDataCacheKeys

def AGGREGATE : String := "stocks:agg"
def TRADES : String := "stocks:trades"
def QUOTES : String := "stocks:quotes"
def HALTS : String := "stocks:luld"
def UNKNOWN : String := "unknown"
def TICKER_SNAPSHOTS : String := "mdc:snapshots"
def TICKER_AVG_VOLUME : String := "mdc:avg_volume"
def TICKER_FREE_FLOAT : String := "mdc:free_float"
def TICKER_SNAPSHOT_LOCK : String := "mdc:lock:snapshots"
def TICKER_AVG_VOLUME_LOCK : String := "mdc:lock:avg_volume"
def TICKER_FREE_FLOAT_LOCK : String := "mdc:lock:free_float"

end MarketDataCacheKeys

namespace WidgetDataCacheKeys

def DAILY_RANGE : String := "daily_range"
def DAILY_RANGE_HOD_ALERT : String := "daily_range_hod_alert"
def DAILY_RANGE_LOD_ALERT : String := "daily_range_lod_alert"
def NEWS_FEED_LATEST : String := "news:feed:latest"
def NEWS_TICKER (ticker : String) : String := "news:ticker:" ++ ticker
def TOP_GAINERS_SCANNER : String := "scanners:top_gainers"
def TOP_GAPPERS_SCANNER : String := "scanners:top_gappers"
def TOP_STOCKS_SCANNER : String := "cache:top_stocks"
def TOP_VOLUME_SCANNER : String := "scanners:top_volume"

end WidgetDataCacheKeys

end KuhlHausMdp
