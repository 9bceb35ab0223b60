import KuhlHausMdp.LeaderboardAnalyzer.Expiry

/-! What a rejected event leaves behind for later events of its symbol: the run
with it against the run without it. -/

set_option autoImplicit false

namespace KuhlHausMdp.LeaderboardAnalyzer

open Transition MarketDataCache

def Outcome.isRaised : Outcome → Bool
  | raised => true
  | _ => false

def Outcome.isQuoted : Outcome → Bool
  | quoted _ => true
  | _ => false

theorem not_isRaised_of_isQuoted {outcome : Outcome} (quoted : outcome.isQuoted = true) : ¬outcome.isRaised = true := by
  cases outcome <;> simp_all [Outcome.isQuoted, Outcome.isRaised]

/-- `float` reads the text, or it counts as none. -/
def Readable (float : String → Option ℚ) (value : Value) : Prop :=
  isEmptyText value = true ∨ (floatOf float value).isSome

/-- Every call is answered, and what is read or looked up is a number. -/
structure Arrival.WellFormed (a : Arrival) : Prop where
  answered : ∀ await, a.fails await = false
  fields : ∀ key value, key ≠ "symbol" → a.event.data.get key = some value → IsNum value
  lookups : ∃ lookups, a.lookups = some lookups ∧ IsNum lookups.avgVolume ∧ Nullable lookups.freeFloat ∧
    ∀ bar, prevDayOf lookups.snapshot = some bar → ∀ field ∈ barFields bar, IsNum field

namespace Timed

variable (float : String → Option ℚ) (zone : ZoneInfo)

def after (arrivals : List Arrival) (s : Timed) : Timed :=
  arrivals.foldl (fun s a => (s.analyzeData float zone a).state) s

def Rejected (s : Timed) (a : Arrival) : Prop :=
  (s.analyzeData float zone a).outcome.isRaised = true ∨ (s.analyzeData float zone a).outcome = .dropped

/-- An event after `before`, `e` and `mid` against the same event without `e`. -/
def Isolated (before : List Arrival) (e : Arrival) (mid : List Arrival) (f : Arrival) : Prop :=
  let withE := ((fresh.after float zone (before ++ e :: mid)).analyzeData float zone f).outcome
  let withoutE := ((fresh.after float zone (before ++ mid)).analyzeData float zone f).outcome
  (withE.isRaised = true → withoutE.isRaised = true) ∧ (withoutE.isQuoted = true → withE.isQuoted = true)

/-- No rejected event of the run changes what becomes of a well-formed one of
its symbol and day, at whatever point of the run this arrives. -/
def PoisonIsolated (arrivals : List Arrival) : Prop :=
  ∀ before e mid rest, arrivals = before ++ e :: mid ++ rest → Rejected float zone (fresh.after float zone before) e →
    ∀ f : Arrival, f.WellFormed → f.event.symbol = e.event.symbol → f.day zone = e.day zone →
      Isolated float zone before e mid f

/-- An event that finds no open price of its symbol stores one that can be read back. -/
def Harmless (s : Timed) (a : Arrival) : Prop :=
  ∀ symbol, s.Asks zone a symbol → a.fails .read = false → a.fails .store = false →
    (s.checks zone a).1.cachedOpen a.readTime symbol = none → Readable float (openOf a.event.data)

def AllReadable (s : Timed) : Prop := ∀ symbol e, s.captor symbol = some e → Readable float (openOf e.event.data)

/-! What the keys of an event are after it. -/

variable {float zone} {s t : Timed} {a e f : Arrival} {symbol : String}

theorem captor_of_checkMarketOpenReset (held : (s.checkMarketOpenReset zone a).1.captor symbol = some e) :
    s.captor symbol = some e := by
  unfold checkMarketOpenReset at held
  split at held
  · exact held
  · split at held
    · exact held
    · split at held
      · exact held
      · split_ifs at held
        exact held

theorem captor_of_checks (held : (s.checks zone a).1.captor symbol = some e) : s.captor symbol = some e := by
  unfold checks at held
  split_ifs at held
  · exact held
  · have kept := captor_of_checkMarketOpenReset held
    exact kept

theorem claimed_of_checkMarketOpenReset (passed : (s.checkMarketOpenReset zone a).2 = false) {today : ℤ}
    (window : Task.openWindow zone a.openTime = some today) :
    (s.checkMarketOpenReset zone a).1.isClaimed a.openTime today = true := by
  rcases checkMarketOpenReset_cases passed with ⟨none, same⟩ | ⟨day, inside, -, same⟩
  · rw [same]
    by_contra free
    exact none ⟨today, window, Bool.eq_false_of_not_eq_true free⟩
  · cases window.symm.trans inside
    simp [same, isClaimed]

theorem claimed_of_checks (passed : (s.checks zone a).2 = false) {today : ℤ}
    (window : Task.openWindow zone a.openTime = some today) : (s.checks zone a).1.isClaimed a.openTime today = true := by
  unfold checks at *
  split_ifs at passed ⊢
  exact claimed_of_checkMarketOpenReset passed window

theorem update_cases : (s.update float symbol a).state.claimed = s.claimed ∧
    ((s.update float symbol a).state.captor = s.captor ∨
      (s.update float symbol a).state.captor = Function.update s.captor symbol (some a) ∧
        a.fails .read = false ∧ a.fails .store = false ∧ s.cachedOpen a.readTime symbol = none ∧
        ∃ lookups early, a.lookups = some lookups ∧
          computeEarly a.event.data (prevDayOf lookups.snapshot) lookups.avgVolume = some early) := by
  rcases update_asks with raised | ⟨lookups, early, openPrice, after, prepared, looked, computed, asked, same⟩
  · rw [raised]
    exact ⟨rfl, .inl rfl⟩
  · rw [same, claimed_finish, captor_finish]
    have answered := read_of_getSymbolOpenPrice asked
    rcases getSymbolOpenPrice_eq_some asked with ⟨e, q, -, -, -, -, -, rfl⟩ | ⟨stored, -, rfl⟩
    · exact ⟨rfl, .inl rfl⟩
    · exact ⟨rfl, .inr ⟨rfl, answered, stored.1, stored.2, lookups, early, looked, computed⟩⟩

theorem state_analyzeData : (s.analyzeData float zone a).state.claimed = (s.checks zone a).1.claimed ∧
    ((s.analyzeData float zone a).state.captor = (s.checks zone a).1.captor ∨
      ∃ symbol, s.Asks zone a symbol ∧ a.fails .read = false ∧ a.fails .store = false ∧
        (s.checks zone a).1.cachedOpen a.readTime symbol = none ∧
        (s.analyzeData float zone a).state.captor = Function.update (s.checks zone a).1.captor symbol (some a)) := by
  unfold analyzeData
  by_cases raised : (s.checks zone a).2 = true
  · rw [if_pos raised]
    exact ⟨rfl, .inl rfl⟩
  rw [if_neg raised]
  have passed := Bool.eq_false_of_not_eq_true raised
  cases named : a.event.symbol with
  | none => exact ⟨rfl, .inl rfl⟩
  | some symbol =>
      obtain ⟨claimed, captor⟩ := @update_cases float (s.checks zone a).1 a symbol
      refine ⟨claimed, captor.imp id ?_⟩
      rintro ⟨stored, read, store, missing, early⟩
      exact ⟨symbol, ⟨passed, named, early⟩, read, store, missing, stored⟩

theorem AllReadable.analyzeData (readable : s.AllReadable float) (harmless : Harmless float zone s a) :
    (s.analyzeData float zone a).state.AllReadable float := by
  intro symbol e held
  rcases state_analyzeData.2 with kept | ⟨other, asks, read, store, missing, kept⟩
  · rw [kept] at held
    exact readable symbol e (captor_of_checks held)
  · rw [kept] at held
    by_cases same : symbol = other
    · subst same
      rw [Function.update_self, Option.some.injEq] at held
      exact held ▸ harmless symbol asks read store missing
    · rw [Function.update_of_ne same] at held
      exact readable symbol e (captor_of_checks held)

/-! A well-formed event is quoted where every open price can be read back. -/

theorem checks_of_answered (answered : ∀ await, a.fails await = false) : (s.checks zone a).2 = false := by
  unfold checks checkMarketOpenReset
  rw [if_neg (by simp [answered])]
  split
  · rfl
  · simp only [answered, Bool.false_eq_true, if_false]
    split <;> rfl

theorem price_of_readable (answered : ∀ await, f.fails await = false) (readable : s.AllReadable float)
    (own : IsNum (openOf f.event.data)) :
    ∃ openPrice after, s.getSymbolOpenPrice float symbol f = some (openPrice, after) ∧ IsNum openPrice := by
  unfold getSymbolOpenPrice
  simp only [answered, Bool.false_eq_true, if_false]
  cases found : s.cachedOpen f.readTime symbol with
  | none => exact ⟨_, _, rfl, own⟩
  | some cached =>
      obtain ⟨e, captor, -, text, rfl⟩ := cachedOpen_eq_some.mp found
      have number : (floatOf float (openOf e.event.data)).isSome :=
        (readable symbol e captor).resolve_left (by rw [text]; exact Bool.false_ne_true)
      obtain ⟨q, same⟩ := Option.isSome_iff_exists.mp number
      exact ⟨.num q, s, by simp [same], q, rfl⟩

theorem quoted_of_wellFormed (wellFormed : f.WellFormed) (named : f.event.symbol = some symbol)
    (readable : s.AllReadable float) : (s.analyzeData float zone f).outcome.isQuoted = true := by
  obtain ⟨lookups, looked, average, free, bars⟩ := wellFormed.lookups
  have isNone : ∀ {value : Value}, IsNum value → value ≠ .none := by
    rintro _ ⟨q, rfl⟩ ⟨⟩
  have field : ∀ key, key ≠ "symbol" → f.event.data.get key ≠ some .none := fun key other missing =>
    isNone (wellFormed.fields key .none other missing) rfl
  have zero : IsNum (.num 0) := ⟨0, rfl⟩
  have inputs : NullableInputs none f.event.data (prevDayOf lookups.snapshot) lookups.avgVolume lookups.freeFloat :=
    ⟨nofun, fun key value other found => .inr (wellFormed.fields key value other found),
      fun bar present value member => .inr (bars bar present value member), .inr average, free⟩
  have own : IsNum (openOf f.event.data) := isNum_readOr (fun value => wellFormed.fields "open" value (by decide))
    (isNum_readOr (fun value => wellFormed.fields "close" value (by decide)) zero)
  have passed := @checks_of_answered zone s f wellFormed.answered
  have checked : (s.checks zone f).1.AllReadable float := fun symbol e held => readable symbol e (captor_of_checks held)
  obtain ⟨openPrice, after, asked, price⟩ := price_of_readable wellFormed.answered checked own
  obtain ⟨early, prepared, computed, ready, sent, volume, gap, gain⟩ :=
    prepare_of_given inputs (fun key member => field key (by rintro rfl; simp at member))
      (fun bar present value member => isNone (bars bar present value member)) (isNone average) price
  obtain ⟨commit, committed⟩ := commit_of_isNum sent volume gap gain symbol
  rw [quoted_of_executes passed named looked computed asked ready (wellFormed.answered _) committed (wellFormed.answered _)]
  rfl

/-! A price that cannot be read back is stored by a rejected event, and raises at the next. -/

/-- A prepared update has an open price that is a number, unless Redis refuses it. -/
theorem readable_of_commit {event : Dict String Value} {prevDay : Option Bar} {avgVolume freeFloat openPrice : Value}
    {early : Early} {prepared : Prepared} {commit : Commit}
    (ready : prepare symbol event prevDay avgVolume freeFloat openPrice early = some prepared)
    (committed : prepared.commit symbol = some commit) : Readable float openPrice := by
  have sent : encodable openPrice = true := by
    unfold Prepared.commit pipeline at committed
    split at committed
    case isTrue sent => exact List.all_eq_true.mp sent ("open", openPrice) (mapping_of_prepare ready).2.1
    case isFalse => cases committed
  cases openPrice with
  | num q => exact .inr rfl
  | str text =>
      by_cases empty : text = ""
      · exact .inl (decide_eq_true empty)
      · -- text is not subtracted
        have noNumber : ∀ close, sub close (.str text) = none := fun close => by cases close <;> rfl
        simp [prepare, orZero, Value.truthy, empty, noNumber] at ready
  | _ => cases sent

variable {before mid rest arrivals : List Arrival}

theorem after_append (first second : List Arrival) (s : Timed) :
    s.after float zone (first ++ second) = (s.after float zone first).after float zone second :=
  List.foldl_append

theorem rejected_of_stores (asks : s.Asks zone e symbol) (read : e.fails .read = false) (store : e.fails .store = false)
    (missing : (s.checks zone e).1.cachedOpen e.readTime symbol = none)
    (unreadable : ¬Readable float (openOf e.event.data)) :
    Rejected float zone s e ∧ (s.analyzeData float zone e).state.captor symbol = some e := by
  obtain ⟨lookups, early, looked, computed⟩ := asks.early
  have asked : (s.checks zone e).1.getSymbolOpenPrice float symbol e =
      some (openOf e.event.data,
        { (s.checks zone e).1 with captor := Function.update (s.checks zone e).1.captor symbol (some e) }) := by
    simp [getSymbolOpenPrice, read, store, missing]
  unfold Rejected analyzeData update
  simp only [asks.passed, asks.named, looked, computed, asked, Bool.false_eq_true, if_false, captor_finish,
    Function.update_self, and_true]
  cases ready : prepare symbol e.event.data (prevDayOf lookups.snapshot) lookups.avgVolume lookups.freeFloat
    (openOf e.event.data) early with
  | none => exact .inl rfl
  | some prepared =>
      have refused : prepared.commit symbol = none := by
        cases committed : prepared.commit symbol with
        | none => rfl
        | some commit => exact absurd (readable_of_commit ready committed) unreadable
      by_cases publish : e.fails .publish = true
      · exact .inl (by simp [finish, execute, refused, publish, Outcome.isRaised])
      · exact .inr (by simp [finish, execute, refused, publish])

/-- An event of a symbol alone, at the times of another. -/
def follower (e : Arrival) (symbol : String) : Arrival where
  event :=
    { data := { entries := [("symbol", .str symbol)], unique := show ["symbol"].Nodup by decide }
      symbolText := by
        intro value read _
        exact ⟨symbol, (Option.some.inj read).symm⟩ }
  boundaryTime := e.boundaryTime
  openTime := e.openTime
  readTime := e.storeTime
  storeTime := e.storeTime
  lookups := some ⟨none, .num 0, .num 0⟩
  fails _ := false

theorem wellFormed_follower (e : Arrival) (symbol : String) : (follower e symbol).WellFormed where
  answered _ := rfl
  fields := by
    intro key value other found
    rw [Dict.get_eq_some_iff] at found
    exact absurd (Prod.mk.inj (List.mem_singleton.mp found)).1 other
  lookups := ⟨_, rfl, ⟨0, rfl⟩, .inr ⟨0, rfl⟩, nofun⟩

theorem named_follower (e : Arrival) (nonempty : symbol ≠ "") : (follower e symbol).event.symbol = some symbol :=
  if_neg nonempty

theorem symbol_ne_empty {event : Aggregate} (named : event.symbol = some symbol) : symbol ≠ "" := by
  unfold Aggregate.symbol at named
  split at named
  · obtain ⟨nonempty, same⟩ := Option.ite_none_left_eq_some.mp named
    exact Option.some.inj same ▸ nonempty
  · cases named

/-- It makes no reset, so it finds what the event stored, and raises. -/
theorem raised_follower (passed : (s.checks zone e).2 = false)
    (held : (s.analyzeData float zone e).state.captor symbol = some e) (nonempty : symbol ≠ "")
    (unreadable : ¬Readable float (openOf e.event.data)) :
    ((s.analyzeData float zone e).state.analyzeData float zone (follower e symbol)).outcome.isRaised = true := by
  have marked := @state_analyzeData float zone s e
  generalize (s.analyzeData float zone e).state = after at *
  have keeps : ¬after.Resets zone (follower e symbol) := by
    rintro ⟨today, window, free⟩
    have here := claimed_of_checks passed (show Task.openWindow zone e.openTime = some today from window)
    rw [isClaimed, ← marked.1] at here
    exact absurd (here.symm.trans free) (by decide)
  have goes := @checks_of_answered zone after (follower e symbol) fun _ => rfl
  have kept : (after.checks zone (follower e symbol)).1.captor symbol = some e := by
    rcases captor_checks goes with ⟨resets, -⟩ | ⟨-, same⟩
    · exact absurd resets keeps
    · rw [same, held]
  obtain ⟨text, number⟩ := not_or.mp unreadable
  have found : (after.checks zone (follower e symbol)).1.cachedOpen (follower e symbol).readTime symbol =
      some (openOf e.event.data) :=
    cachedOpen_eq_some.mpr
      ⟨e, kept, show e.storeTime < e.storeTime + 86400 by omega, Bool.eq_false_of_not_eq_true text, rfl⟩
  have refused : (after.checks zone (follower e symbol)).1.getSymbolOpenPrice float symbol (follower e symbol) = none := by
    have answered : (follower e symbol).fails .read = false := rfl
    simp [getSymbolOpenPrice, answered, found, Option.not_isSome_iff_eq_none.mp number]
  unfold analyzeData update
  simp only [goes, named_follower e nonempty, refused, Bool.false_eq_true, if_false]
  split
  · rfl
  · split <;> rfl

/-- In a run without such a price a rejected event that stores one is the first to do harm. -/
theorem harmless_of_isolated (isolated : PoisonIsolated float zone arrivals) (split : arrivals = before ++ e :: rest)
    (readable : (fresh.after float zone before).AllReadable float) :
    Harmless float zone (fresh.after float zone before) e := by
  intro symbol asks read store missing
  by_contra unreadable
  obtain ⟨rejected, held⟩ := rejected_of_stores asks read store missing unreadable
  have nonempty := symbol_ne_empty asks.named
  have raised := raised_follower asks.passed held nonempty unreadable
  have alone := isolated before e [] rest (by simpa using split) rejected (follower e symbol)
    (wellFormed_follower e symbol) ((named_follower e nonempty).trans asks.named.symm) rfl
  have quoted := @quoted_of_wellFormed float zone (fresh.after float zone before) (follower e symbol) symbol
    (wellFormed_follower e symbol) (named_follower e nonempty) readable
  have both := alone.1 (by rw [after_append]; exact raised)
  rw [List.append_nil] at both
  exact not_isRaised_of_isQuoted quoted both

theorem along_iff_split {permitted : Timed → Arrival → Prop} {s : Timed} :
    Along (step float zone) permitted arrivals s ↔
      ∀ before e rest, arrivals = before ++ e :: rest → permitted (s.after float zone before) e := by
  induction arrivals generalizing s with
  | nil => simp [Along]
  | cons a arrivals ih =>
      simp only [Along, step, Option.some.injEq, forall_eq', ih]
      constructor
      · rintro ⟨here, later⟩ before e rest split
        cases before with
        | nil => cases split; exact here
        | cons first before =>
            obtain ⟨rfl, tail⟩ := List.cons.inj split
            exact later before e rest tail
      · intro all
        exact ⟨all [] a arrivals rfl, fun before e rest split => all (a :: before) e rest (by rw [split]; rfl)⟩

theorem allReadable_fresh : fresh.AllReadable float := fun _ _ held => nomatch held

theorem allReadable_after {s : Timed} (readable : s.AllReadable float)
    (harmless : Along (step float zone) (Harmless float zone) arrivals s) :
    (s.after float zone arrivals).AllReadable float := by
  induction arrivals generalizing s with
  | nil => exact readable
  | cons a arrivals ih => exact ih (readable.analyzeData harmless.1) (harmless.2 _ rfl)

/-- Rejected events are isolated exactly in the runs in which no event stores an
open price that cannot be read back. -/
theorem poisonIsolated_iff (float : String → Option ℚ) (zone : ZoneInfo) (arrivals : List Arrival) :
    PoisonIsolated float zone arrivals ↔ Along (step float zone) (Harmless float zone) arrivals fresh := by
  constructor
  · intro isolated
    have readable : ∀ before rest, arrivals = before ++ rest → (fresh.after float zone before).AllReadable float := by
      intro before
      induction before using List.reverseRecOn with
      | nil => exact fun _ _ => allReadable_fresh
      | append_singleton before e ih =>
          intro rest split
          have split : arrivals = before ++ e :: rest := by simpa using split
          rw [after_append]
          exact (ih (e :: rest) split).analyzeData (harmless_of_isolated isolated split (ih (e :: rest) split))
    rw [along_iff_split]
    intro before e rest split
    exact harmless_of_isolated isolated split (readable before (e :: rest) split)
  · intro harmless before e mid rest split _ f wellFormed same _
    cases named : f.event.symbol with
    | none =>
        have ignored : ∀ s : Timed, (s.analyzeData float zone f).outcome = .ignored := by
          intro s
          simp [analyzeData, @checks_of_answered zone s f wellFormed.answered, named, wellFormed.answered]
        rw [Isolated, ignored, ignored]
        constructor
        · intro raised
          cases raised
        · intro quoted
          cases quoted
    | some symbol =>
        have early : Along (step float zone) (Harmless float zone) (before ++ e :: mid) fresh :=
          (along_append.mp (split ▸ harmless)).1
        have quoted := @quoted_of_wellFormed float zone (fresh.after float zone (before ++ e :: mid)) f symbol wellFormed
          named (allReadable_after allReadable_fresh early)
        exact ⟨fun raised => absurd raised (not_isRaised_of_isQuoted quoted), fun _ => quoted⟩

/-- An open of None is stored as text, and the next event reads it. -/
theorem poisonIsolated_none :
    ¬PoisonIsolated (fun _ => none) americaNewYork [arriveAt 1700000000 (trade .none (.num 11))] := by
  intro isolated
  have wellFormed : (arriveAt 1700000001 (trade (.num 10) (.num 11))).WellFormed := by
    refine ⟨fun _ => rfl, fun key value other found => ?_, ⟨_, rfl, ⟨0, rfl⟩, .inr ⟨0, rfl⟩, nofun⟩⟩
    rw [Dict.get_eq_some_iff] at found
    simp only [arriveAt, trade, List.mem_cons, Prod.mk.injEq, List.not_mem_nil, or_false] at found
    rcases found with ⟨rfl, -⟩ | ⟨-, rfl⟩ | ⟨-, rfl⟩
    · exact absurd rfl other
    · exact ⟨10, rfl⟩
    · exact ⟨11, rfl⟩
  have alone := isolated [] _ [] [] rfl (.inr ?_) _ wellFormed rfl (by decide +kernel)
  · have both := alone.1 (by decide +kernel)
    exact absurd both (by decide +kernel)
  · rfl

end Timed

end KuhlHausMdp.LeaderboardAnalyzer
