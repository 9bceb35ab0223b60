import KuhlHausMdp.Enum
import KuhlHausMdp.Library.Value
import KuhlHausMdp.FinlightDataAnalyzer.RawTickers

/-! `FinlightDataAnalyzer`: an article goes to the feed of all news and to the
list of each ticker it is about. A result of `none` is an exception. -/

set_option autoImplicit false

namespace KuhlHausMdp

namespace FinlightDataAnalyzer

structure MarketDataAnalyzerResult where
  data : Value
  cacheKey : String
  cacheTtl : Nat
  publishKey : String
  cacheListMax : Nat

def validExchanges : List String := ["XNYS", "XASE", "XNAS"]

end FinlightDataAnalyzer

structure FinlightDataAnalyzer where
  newsFeedListMax : Nat := FinlightDataCache.NEWS_FEED_LIST_MAX
  newsTickerListMax : Nat := FinlightDataCache.NEWS_TICKER_LIST_MAX
  newsFeedCacheTtl : Nat := WidgetDataCacheTTL.NEWS_FEED_LATEST
  newsTickerCacheTtl : Nat := WidgetDataCacheTTL.NEWS_TICKER

namespace FinlightDataAnalyzer

/-- `f"{value}"`; `shown` is the text of numbers, lists and dictionaries. -/
def formatted (shown : Value → String) : Value → String
  | .str s => s
  | .none => "None"
  | .bool true => "True"
  | .bool false => "False"
  | value => shown value

def getOrEmpty (value : Value) (key : String) : Value :=
  match value with
  | .dict entries => (entries.lookup key).getD (.str "")
  | _ => .str ""

section

variable (uppercase : Char → List Char)

/-- Membership in a set hashes its operand. -/
def isValidExchange : Value → Option Bool
  | .list _ | .dict _ => none
  | .str code => some (decide (code ∈ validExchanges))
  | _ => some false

def listedTicker (company primary : Value) : Option (Option String) :=
  match (primary.lookup "ticker").orElse (company.lookup "ticker") with
  | .str ticker => some (if ticker = "" then none else some (upper uppercase ticker))
  | other => if other.truthy then none else some none

/-- One turn of the loop over the companies: the ticker it appends, if any. -/
def companyTicker (company : Value) : Option (Option String) :=
  match company, company.lookup "primaryListing" with
  | .dict _, .dict primary =>
      if (Value.dict primary).truthy then
        (isValidExchange (getOrEmpty (.dict primary) "exchangeCode")).bind fun valid =>
          if valid then listedTicker uppercase company (.dict primary) else some none
      else some none
  | .dict _, primary => if primary.truthy then none else some none
  | _, _ => none

def companyTickers : List Value → Option (List String)
  | [] => some []
  | company :: rest =>
      (companyTicker uppercase company).bind fun ticker => (companyTickers rest).map fun more => ticker.toList ++ more

/-- Only the items of a list of companies have a `get`. -/
def extractEnhancedTickers : Value → Option (List String)
  | .list companies => companyTickers uppercase companies
  | _ => none

variable (shown : Value → String)

def rawText (data : Value) : String :=
  formatted shown (getOrEmpty data "title") ++ " " ++ formatted shown (getOrEmpty data "summary")

def tickersOf (data : Value) : Option (List String) :=
  if (data.lookup "companies").truthy then extractEnhancedTickers uppercase (data.lookup "companies")
  else some (extractRawTickers uppercase (rawText shown data))

def feedResult (self : FinlightDataAnalyzer) (data : Value) : MarketDataAnalyzerResult where
  data := data
  cacheKey := WidgetDataCacheKeys.NEWS_FEED_LATEST
  cacheTtl := self.newsFeedCacheTtl
  publishKey := WidgetDataCacheKeys.NEWS_FEED_LATEST
  cacheListMax := self.newsFeedListMax

def tickerResult (self : FinlightDataAnalyzer) (data : Value) (ticker : String) : MarketDataAnalyzerResult where
  data := data
  cacheKey := WidgetDataCacheKeys.NEWS_TICKER ticker
  cacheTtl := self.newsTickerCacheTtl
  publishKey := WidgetDataCacheKeys.NEWS_TICKER ticker
  cacheListMax := self.newsTickerListMax

/-- What is returned for an article, None for an empty one. -/
def analyzeData (self : FinlightDataAnalyzer) (data : Value) : Option (Option (List MarketDataAnalyzerResult)) :=
  if data.truthy then
    match data with
    | .dict _ => (tickersOf uppercase shown data).map fun tickers =>
        some (self.feedResult data :: tickers.map (self.tickerResult data))
    | _ => none
  else some none

/-! Which tickers the companies of an article give. -/

/-- A company is listed in the US under a ticker, its own or that of its listing. -/
def ListedAs (company : Value) (ticker : String) : Prop :=
  let primary := company.lookup "primaryListing"
  (∃ code ∈ validExchanges, primary.lookup "exchangeCode" = .str code) ∧
    ∃ name, name ≠ "" ∧ (primary.lookup "ticker").orElse (company.lookup "ticker") = .str name ∧
      upper uppercase name = ticker

theorem listedTicker_eq_some {company primary : Value} {ticker : Option String}
    (found : listedTicker uppercase company primary = some ticker) (other : String) :
    ticker = some other ↔ ∃ name, name ≠ "" ∧ (primary.lookup "ticker").orElse (company.lookup "ticker") = .str name ∧
      upper uppercase name = other := by
  rw [listedTicker] at found
  split at found
  case h_1 name same =>
    rw [same, ← Option.some.inj found]
    by_cases none : name = "" <;> simp [none, Ne.symm]
  case h_2 other_ notText =>
    split_ifs at found
    cases found
    constructor
    · rintro ⟨⟩
    · rintro ⟨name, -, same, -⟩
      exact absurd same (notText name)

theorem lookup_getOrEmpty {value : Value} {key code : String} (notEmpty : code ≠ "") :
    getOrEmpty value key = .str code ↔ value.lookup key = .str code := by
  cases value with
  | dict entries =>
      rw [getOrEmpty, Value.lookup]
      cases entries.lookup key with
      | some value => rfl
      | none => simp [notEmpty.symm]
  | _ => simp [getOrEmpty, Value.lookup, notEmpty.symm]

theorem isValidExchange_eq_some {value : Value} {valid : Bool} (found : isValidExchange value = some valid) :
    valid = true ↔ ∃ code ∈ validExchanges, value = .str code := by
  cases value <;> simp [isValidExchange] at found <;> simp [← found]

theorem not_listedAs {company : Value} {other : String}
    (noCode : (company.lookup "primaryListing").lookup "exchangeCode" = .none) : ¬ListedAs uppercase company other := by
  rintro ⟨⟨code, -, same⟩, -⟩
  rw [noCode] at same
  cases same

theorem companyTicker_eq_some {company : Value} {ticker : Option String}
    (found : companyTicker uppercase company = some ticker) (other : String) :
    ticker = some other ↔ ListedAs uppercase company other := by
  unfold companyTicker at found
  split at found
  case h_1 entries primary same =>
    split_ifs at found with truthy
    · obtain ⟨valid, checked, found⟩ := Option.bind_eq_some_iff.mp found
      have listed : valid = true ↔
          ∃ code ∈ validExchanges, ((Value.dict entries).lookup "primaryListing").lookup "exchangeCode" = .str code := by
        rw [isValidExchange_eq_some checked, same]
        refine exists_congr fun code => and_congr_right fun member => lookup_getOrEmpty ?_
        rintro rfl
        exact absurd member (by decide)
      cases valid with
      | true =>
          rw [if_pos rfl] at found
          rw [listedTicker_eq_some uppercase found other, ListedAs, same]
          exact ⟨fun name => ⟨same ▸ listed.mp rfl, name⟩, And.right⟩
      | false =>
          cases found
          exact ⟨nofun, fun listing => absurd (listed.mpr listing.1) (by decide)⟩
    · cases found
      have empty : primary = [] := by simpa [Value.truthy] using truthy
      exact ⟨nofun, fun listing => absurd listing (not_listedAs uppercase (by rw [same, empty]; rfl))⟩
  case h_2 entries notDict =>
    split_ifs at found
    cases found
    refine ⟨nofun, fun listing => absurd listing (not_listedAs uppercase ?_)⟩
    cases primary : (Value.dict entries).lookup "primaryListing" with
    | dict listing => exact absurd primary (notDict listing)
    | _ => rfl
  case h_3 => cases found

def DistinctListings (companies : List Value) : Prop :=
  companies.Pairwise fun a b => ¬∃ ticker, ListedAs uppercase a ticker ∧ ListedAs uppercase b ticker

theorem companyTickers_eq_some {companies : List Value} {tickers : List String}
    (found : companyTickers uppercase companies = some tickers) :
    (∀ ticker, ticker ∈ tickers ↔ ∃ company ∈ companies, ListedAs uppercase company ticker) ∧
      (tickers.Nodup ↔ DistinctListings uppercase companies) := by
  induction companies generalizing tickers with
  | nil =>
      cases found
      simp [DistinctListings]
  | cons company rest ih =>
      obtain ⟨first, one, found⟩ := Option.bind_eq_some_iff.mp found
      obtain ⟨more, later, rfl⟩ := Option.map_eq_some_iff.mp found
      obtain ⟨members, distinct⟩ := ih later
      have listed := companyTicker_eq_some uppercase one
      constructor
      · intro ticker
        simp only [List.mem_append, Option.mem_toList, listed, members]
        exact (List.exists_mem_cons_iff (fun company => ListedAs uppercase company ticker) company rest).symm
      · have apart : (∀ other ∈ rest, ¬∃ ticker, ListedAs uppercase company ticker ∧ ListedAs uppercase other ticker) ↔
            ∀ ticker, first = some ticker → ticker ∉ more := by
          simp only [members, listed]
          grind
        rw [DistinctListings, List.pairwise_cons, ← DistinctListings, ← distinct, apart]
        cases first with
        | none => simp
        | some ticker => simp

variable (shown : Value → String)

def publishKeys (results : List MarketDataAnalyzerResult) : List String := results.map MarketDataAnalyzerResult.publishKey

theorem NEWS_TICKER_injective : Function.Injective WidgetDataCacheKeys.NEWS_TICKER := by
  intro a b same
  rw [WidgetDataCacheKeys.NEWS_TICKER, WidgetDataCacheKeys.NEWS_TICKER, ← String.toList_inj, String.toList_append,
    String.toList_append] at same
  exact String.toList_inj.mp (List.append_cancel_left same)

theorem NEWS_TICKER_ne_feed (ticker : String) :
    WidgetDataCacheKeys.NEWS_TICKER ticker ≠ WidgetDataCacheKeys.NEWS_FEED_LATEST := by
  intro same
  have letters := congrArg (fun s => s.toList.take 6) same
  rw [WidgetDataCacheKeys.NEWS_TICKER, String.toList_append, List.take_append_of_le_length (by decide)] at letters
  exact absurd letters (by decide)

theorem analyzeData_eq_some (self : FinlightDataAnalyzer) {data : Value} {results : List MarketDataAnalyzerResult}
    (returned : self.analyzeData uppercase shown data = some (some results)) :
    ∃ tickers, tickersOf uppercase shown data = some tickers ∧
      publishKeys results = WidgetDataCacheKeys.NEWS_FEED_LATEST :: tickers.map WidgetDataCacheKeys.NEWS_TICKER := by
  unfold analyzeData at returned
  cases data with
  | dict entries =>
      by_cases some : (Value.dict entries).truthy
      · rw [if_pos some] at returned
        obtain ⟨tickers, found, same⟩ := Option.map_eq_some_iff.mp returned
        cases same
        exact ⟨tickers, found, by simp [publishKeys, feedResult, tickerResult, Function.comp_def]⟩
      · rw [if_neg some] at returned
        cases returned
  | _ => simp at returned

/-- An article goes to a key once exactly when no two of its companies are
listed in the US under one ticker; the tickers of a text are distinct anyway. -/
theorem publishKeys_nodup_iff (self : FinlightDataAnalyzer) {data : Value} {results : List MarketDataAnalyzerResult}
    (returned : self.analyzeData uppercase shown data = some (some results)) :
    (publishKeys results).Nodup ↔
      ∀ companies, data.lookup "companies" = .list companies → DistinctListings uppercase companies := by
  obtain ⟨tickers, found, keys⟩ := analyzeData_eq_some uppercase shown self returned
  have once : (publishKeys results).Nodup ↔ tickers.Nodup := by
    rw [keys, List.nodup_cons, List.nodup_map_iff NEWS_TICKER_injective]
    refine and_iff_right fun member => ?_
    obtain ⟨ticker, -, same⟩ := List.mem_map.mp member
    exact NEWS_TICKER_ne_feed ticker same
  rw [once]
  unfold tickersOf at found
  split_ifs at found with enhanced
  · unfold extractEnhancedTickers at found
    split at found
    case h_1 companies same =>
      rw [(companyTickers_eq_some uppercase found).2, same]
      exact ⟨fun distinct _ equal => by cases equal; exact distinct, fun all => all companies rfl⟩
    case h_2 => cases found
  · cases found
    refine iff_of_true (nodup_extractRawTickers uppercase _) fun companies same => ?_
    -- an absent or empty list of companies
    rw [same] at enhanced
    have empty : companies = [] := by simpa [Value.truthy] using enhanced
    rw [empty]
    exact .nil

def listedCompany (exchange ticker : String) : Value :=
  .dict [("primaryListing", .dict [("exchangeCode", .str exchange), ("ticker", .str ticker)])]

/-- Two share classes under one ticker, in different case. -/
def twiceListed : Value := .dict [("companies", .list [listedCompany "XNAS" "GOOG", listedCompany "XNYS" "goog"])]

theorem publishKeys_twiceListed :
    ∃ results, analyzeData (fun c => [c]) (fun _ => "") {} twiceListed = some (some results) ∧
      publishKeys results = ["news:feed:latest", "news:ticker:GOOG", "news:ticker:GOOG"] ∧
        ¬(publishKeys results).Nodup := by
  refine ⟨_, rfl, ?_, ?_⟩ <;> decide +kernel

def onceListed : Value := .dict [("companies", .list [listedCompany "XNAS" "GOOG", listedCompany "XTSE" "GOOG"])]

theorem publishKeys_onceListed :
    ∃ results, analyzeData (fun c => [c]) (fun _ => "") {} onceListed = some (some results) ∧
      ((publishKeys results).Nodup ↔ ∀ companies, onceListed.lookup "companies" = .list companies →
        DistinctListings (fun c => [c]) companies) :=
  ⟨_, rfl, publishKeys_nodup_iff (fun c => [c]) (fun _ => "") {} rfl⟩

end

end FinlightDataAnalyzer

end KuhlHausMdp
