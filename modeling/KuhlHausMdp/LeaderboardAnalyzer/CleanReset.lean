import KuhlHausMdp.Eastern
import KuhlHausMdp.LeaderboardAnalyzer.OpenReset
import KuhlHausMdp.LeaderboardAnalyzer.Sequential

/-! When the market open reset is complete: the state in which its pipeline
executes decides whether an older open price is ever scored with again. -/

set_option autoImplicit false

namespace KuhlHausMdp.LeaderboardAnalyzer

open Transition MarketDataCache

def openingOf (summer : ℤ → Bool) (day : ℤ) : ℤ := fourAM summer day + 19800

/-- Stored after a number of resets, and not captured before an instant. -/
def Origin.Since (resets : Nat) (opening : ℤ) (origin : Origin) : Prop :=
  resets ≤ origin.stored ∧ opening ≤ origin.captured

instance (resets : Nat) (opening : ℤ) (origin : Origin) : Decidable (origin.Since resets opening) :=
  inferInstanceAs (Decidable (resets ≤ origin.stored ∧ opening ≤ origin.captured))

/-- As the pipeline executes, no call is at its own pipeline, the scan has found
every open price that is a number, and no call is about to store one it
captured before the market opened. -/
structure Cluster.Clean (s : Cluster) (found : List String) (opening : ℤ) : Prop where
  committing : ∀ k event commit, s.call k ≠ some (event, .task (.committing commit))
  found : ∀ symbol price, s.store.openPrice symbol = some (.num price) → symbol ∈ found
  storing : ∀ k event ticker average float price,
    s.call k = some (event, .task (.storingOpen ticker average float price)) → price ≠ .none →
      opening ≤ (s.held k).captured

/-! What holds of every run. -/

theorem opening_le_of_window {summer : ℤ → Bool} {now today : ℤ}
    (window : Task.openWindow (eastern summer) now = some today) : openingOf summer today ≤ now := by
  obtain ⟨inside, same⟩ := Option.ite_none_right_eq_some.mp window
  cases same
  have late : ¬localSecond (eastern summer) now < 14400 := fun early => absurd (inside.1.trans_lt early) (by decide)
  have shows := localSecond_eastern.2 (not_lt.mp (mt localSecond_lt_iff.mpr late))
  have from930 : 34200 ≤ localSecond (eastern summer) now := inside.1
  change fourAM summer (localDay (eastern summer) now) + 19800 ≤ now
  omega

def Call.FromFallback (event : Event) : Call → Prop
  | .task (.storingOpen _ _ _ price) => price = Task.fallbackOpen event
  | _ => True

namespace Cluster

structure Stamped (s : Cluster) : Prop where
  origin : ∀ symbol, (s.origin symbol).stored ≤ s.resets
  held : ∀ k, (s.held k).stored ≤ s.resets
  written : ∀ write ∈ s.written, write.resets ≤ s.resets

structure Known (summer : ℤ → Bool) (s : Cluster) : Prop where
  stamped : s.Stamped
  nameless : s.store.openPrice "" = none
  fallback : ∀ k event call, s.call k = some (event, call) → call.FromFallback event
  opened : ∀ k event call today, s.call k = some (event, call) → call.day? = some today → openingOf summer today ≤ s.now

variable {summer : ℤ → Bool} {zone : ZoneInfo} {s t : Cluster} {k : Nat} {event : Event} {call : Call} {answer : Answer}

theorem step_resume (one : s.step zone (.resume k answer) = some t) :
    ∃ event call after next, s.call k = some (event, call) ∧ Resumed s.now zone s.store event call answer after next ∧
      t = { s.note k event call answer with
            store := after
            call := Function.update s.call k (some (event, next)) } := by
  simp only [step] at one
  cases here : s.call k with
  | none =>
      rw [here] at one
      cases one
  | some pair =>
      rw [here] at one
      obtain ⟨⟨after, next⟩, resumed, rfl⟩ := Option.map_eq_some_iff.mp one
      exact ⟨pair.1, pair.2, after, next, rfl, Call.resumed resumed, rfl⟩

@[simp] theorem note_now : (s.note k event call answer).now = s.now := by
  unfold Cluster.note
  split <;> rfl

theorem resets_le_note : s.resets ≤ (s.note k event call answer).resets := by
  unfold Cluster.note
  split
  · exact Nat.le_succ _
  all_goals exact le_rfl

theorem held_note_of_ne {j : Nat} (apart : j ≠ k) : (s.note k event call answer).held j = s.held j := by
  unfold Cluster.note
  split <;> first | rfl | exact Function.update_of_ne apart _ _

theorem Stamped.note (stamped : s.Stamped) : (s.note k event call answer).Stamped := by
  unfold Cluster.note
  split
  · exact ⟨fun symbol => Nat.le_succ_of_le (stamped.origin symbol), fun k => Nat.le_succ_of_le (stamped.held k),
      fun write member => Nat.le_succ_of_le (stamped.written write member)⟩
  · refine { stamped with held := ?_ }
    apply (Function.forall_update_iff s.held fun _ origin => origin.stored ≤ s.resets).mpr
    refine ⟨?_, fun k _ => stamped.held k⟩
    split
    · exact stamped.origin _
    · exact le_rfl
  · refine { stamped with origin := ?_, held := ?_ }
    · apply (Function.forall_update_iff s.origin fun _ origin => origin.stored ≤ s.resets).mpr
      exact ⟨le_rfl, fun symbol _ => stamped.origin symbol⟩
    · apply (Function.forall_update_iff s.held fun _ origin => origin.stored ≤ s.resets).mpr
      exact ⟨le_rfl, fun k _ => stamped.held k⟩
  · exact { stamped with written := List.forall_mem_cons.mpr ⟨le_rfl, stamped.written⟩ }
  · exact stamped

theorem nameless_of_resumed {after : Store} {next : Call}
    (resumed : Resumed s.now zone s.store event call answer after next) (nameless : s.store.openPrice "" = none) :
    after.openPrice "" = none := by
  cases resumed with
  | deleted today found after left => rw [left, nameless, ite_self]
  | missing | read | unusable | committed => exact nameless
  | stored ticker average float price =>
      change Function.update s.store.openPrice event.symbol _ "" = none
      rw [Function.update_of_ne event.nonempty.symm, nameless]
  | other _ _ _ _ fewer =>
      cases price : after.openPrice "" with
      | none => rfl
      | some value => exact nomatch nameless.symm.trans (fewer "" value price)

theorem fromFallback_of_resumed {after : Store} {next : Call}
    (resumed : Resumed s.now zone s.store event call answer after next) : next.FromFallback event := by
  have computed : ∀ ticker average float price,
      (Call.task (Task.compute event ticker average float price)).FromFallback event := by
    intro ticker average float price
    unfold Task.compute
    split <;> trivial
  cases resumed with
  | deleted | unusable | committed => trivial
  | missing => rfl
  | read | stored => exact computed _ _ _ _
  | other _ _ _ _ _ free =>
      unfold Call.FromFallback
      split
      case h_1 => cases free
      case h_2 => trivial

theorem day_of_resumed {after : Store} {next : Call} {today : ℤ}
    (resumed : Resumed s.now zone s.store event call answer after next) (day : next.day? = some today) :
    call.day? = some today ∨ Task.openWindow zone s.now = some today := by
  cases resumed with
  | deleted | missing | unusable | committed => cases day
  | read | stored => rw [day?_compute] at day; cases day
  | other _ _ _ _ _ _ forms => exact forms today day

theorem call_cases {calls : Nat → Option (Event × Call)} {j : Nat} {set pair : Event × Call}
    (here : Function.update calls k (some set) j = some pair) : j = k ∧ pair = set ∨ j ≠ k ∧ calls j = some pair := by
  by_cases same : j = k
  · rw [same, Function.update_self] at here
    exact .inl ⟨same, (Option.some.inj here).symm⟩
  · rw [Function.update_of_ne same] at here
    exact .inr ⟨same, here⟩

theorem Known.step {action : ClusterStep} (known : s.Known summer) (one : s.step (eastern summer) action = some t) :
    t.Known summer := by
  have stamped := known.stamped
  cases action with
  | advance seconds =>
      cases one
      refine ⟨⟨stamped.origin, stamped.held, stamped.written⟩, known.nameless, known.fallback, ?_⟩
      intro k event call today here day
      exact (known.opened k event call today here day).trans (Int.le_add_of_nonneg_right (Int.natCast_nonneg seconds))
  | expire symbol =>
      cases one
      refine ⟨⟨stamped.origin, stamped.held, stamped.written⟩, ?_, known.fallback, known.opened⟩
      change Function.update s.store.openPrice symbol none "" = none
      rw [Function.update_apply, known.nameless, ite_self]
  | start event =>
      cases one
      refine ⟨⟨stamped.origin, stamped.held, stamped.written⟩, known.nameless, ?_, ?_⟩
      · intro j other call here
        rcases call_cases here with ⟨-, same⟩ | ⟨-, old⟩
        · cases same
          trivial
        · exact known.fallback j other call old
      · intro j other call today here day
        rcases call_cases here with ⟨-, same⟩ | ⟨-, old⟩
        · cases same
          cases day
        · exact known.opened j other call today old day
  | resume k answer =>
      obtain ⟨event, call, after, next, here, resumed, rfl⟩ := step_resume one
      have noted : (s.note k event call answer).Stamped := stamped.note
      refine ⟨⟨noted.origin, noted.held, noted.written⟩, nameless_of_resumed resumed known.nameless, ?_, ?_⟩
      · intro j other later found
        rcases call_cases found with ⟨-, same⟩ | ⟨-, old⟩
        · cases same
          exact fromFallback_of_resumed resumed
        · exact known.fallback j other later old
      · intro j other later today found day
        rw [note_now]
        rcases call_cases found with ⟨-, same⟩ | ⟨-, old⟩
        · cases same
          rcases day_of_resumed resumed day with earlier | window
          · exact known.opened k event call today here earlier
          · exact opening_le_of_window window
        · exact known.opened j other later today old day

/-! After a reset. -/

/-- What a call may hold: no price of before the reset to score with, and none
captured before the opening to store. -/
def keeps (count : Nat) (opening : ℤ) (held : Origin) : Call → Prop
  | .task (.storingOpen _ _ _ price) => price ≠ .none → opening ≤ held.captured
  | .task (.committing _) => held.Since count opening
  | _ => True

structure Renewed (count : Nat) (opening : ℤ) (s : Cluster) : Prop where
  now : opening ≤ s.now
  resets : count ≤ s.resets
  stored : ∀ symbol price, s.store.openPrice symbol = some (.num price) → (s.origin symbol).Since count opening
  calls : ∀ k event call, s.call k = some (event, call) → keeps count opening (s.held k) call
  written : ∀ write ∈ s.written, count ≤ write.resets → write.origin.Since count opening

variable {count : Nat} {opening : ℤ}

theorem keeps_of_free {held : Origin} (free : call.holding = false) : keeps count opening held call := by
  unfold keeps
  split
  case h_1 | h_2 => cases free
  case h_3 => trivial

/-- A price that is None cannot be sent, so nothing is scored with it. -/
theorem compute_none (ticker : TickerSnapshot) (average float : Value) :
    Task.compute event ticker average float .none = .failed := by
  have unsent : metrics event.symbol event.data ticker average float .none = none := by
    rw [Option.eq_none_iff_forall_ne_some]
    intro commit computed
    obtain ⟨_, _, -, sent, -⟩ := metrics_cases computed
    cases sent
  rw [Task.compute, unsent]

theorem keeps_compute {held : Origin} {ticker : TickerSnapshot} {average float price : Value}
    (since : price ≠ .none → held.Since count opening) :
    keeps count opening held (.task (Task.compute event ticker average float price)) := by
  by_cases missing : price = .none
  · rw [missing, compute_none]
    trivial
  · unfold Task.compute
    split
    · exact since missing
    · trivial

theorem keeps_of_resumed (renewed : s.Renewed count opening) {after : Store} {next : Call}
    (here : s.call k = some (event, call)) (resumed : Resumed s.now zone s.store event call answer after next) :
    keeps count opening ((s.note k event call answer).held k) next := by
  have kept := renewed.calls k event call here
  cases resumed with
  | deleted | unusable | committed => trivial
  | missing ticker average float none =>
      intro
      simp [note, none, renewed.now]
  | read ticker average float price stored =>
      apply keeps_compute
      intro
      simpa [note, stored] using renewed.stored event.symbol price stored
  | stored ticker average float price =>
      apply keeps_compute
      intro present
      simpa [note] using ⟨renewed.resets, kept present⟩
  | other _ _ _ _ _ free => exact keeps_of_free free

theorem stored_of_resumed (renewed : s.Renewed count opening) {after : Store} {next : Call}
    (here : s.call k = some (event, call)) (resumed : Resumed s.now zone s.store event call answer after next)
    {symbol : String} {price : ℚ} (found : after.openPrice symbol = some (.num price)) :
    ((s.note k event call answer).origin symbol).Since count opening := by
  have kept := renewed.calls k event call here
  cases resumed with
  | deleted today symbols after left =>
      rw [left] at found
      exact renewed.stored symbol price (Option.ite_none_left_eq_some.mp found).2
  | missing | read | unusable | committed => exact renewed.stored symbol price found
  | stored ticker average float value =>
      change Function.update s.store.openPrice event.symbol (some value) symbol = _ at found
      by_cases same : symbol = event.symbol
      · rw [same, Function.update_self, Option.some_inj] at found
        have present : value ≠ .none := by
          rw [found]
          exact nofun
        simpa [note, same] using ⟨renewed.resets, kept present⟩
      · rw [Function.update_of_ne same] at found
        simpa [note, Function.update_of_ne same] using renewed.stored symbol price found
  | other _ _ _ _ fewer _ _ unnoted =>
      rw [unnoted]
      exact renewed.stored symbol price (fewer symbol _ found)

theorem written_of_resumed (renewed : s.Renewed count opening) {after : Store} {next : Call}
    (here : s.call k = some (event, call)) (resumed : Resumed s.now zone s.store event call answer after next) :
    ∀ write ∈ (s.note k event call answer).written, count ≤ write.resets → write.origin.Since count opening := by
  have kept := renewed.calls k event call here
  cases resumed with
  | deleted | missing | read | unusable | stored => exact renewed.written
  | committed commit => exact List.forall_mem_cons.mpr ⟨fun _ => kept, renewed.written⟩
  | other _ _ _ _ _ _ _ unnoted =>
      rw [unnoted]
      exact renewed.written

theorem Renewed.step {action : ClusterStep} (renewed : s.Renewed count opening) (one : s.step zone action = some t) :
    t.Renewed count opening := by
  cases action with
  | advance seconds =>
      cases one
      refine { renewed with now := renewed.now.trans (Int.le_add_of_nonneg_right (Int.natCast_nonneg seconds)) }
  | expire symbol =>
      cases one
      refine ⟨renewed.now, renewed.resets, fun other price found => ?_, renewed.calls, renewed.written⟩
      change Function.update s.store.openPrice symbol none other = _ at found
      rw [Function.update_apply] at found
      exact renewed.stored other price (Option.ite_none_left_eq_some.mp found).2
  | start event =>
      cases one
      refine ⟨renewed.now, renewed.resets, renewed.stored, fun j other call here => ?_, renewed.written⟩
      rcases call_cases here with ⟨-, same⟩ | ⟨-, old⟩
      · cases same
        trivial
      · exact renewed.calls j other call old
  | resume k answer =>
      obtain ⟨event, call, after, next, here, resumed, rfl⟩ := step_resume one
      refine ⟨?_, renewed.resets.trans resets_le_note, fun _ _ => stored_of_resumed renewed here resumed, ?_,
        written_of_resumed renewed here resumed⟩
      · exact renewed.now.trans_eq note_now.symm
      · intro j other later found
        rcases call_cases found with ⟨rfl, same⟩ | ⟨apart, old⟩
        · cases same
          exact keeps_of_resumed renewed here resumed
        · change keeps count opening ((s.note k event call answer).held j) later
          rw [held_note_of_ne apart]
          exact renewed.calls j other later old

theorem known_fresh (summer : ℤ → Bool) (now : ℤ) : (fresh now).Known summer where
  stamped := ⟨fun _ => le_rfl, fun _ => le_rfl, fun _ member => nomatch member⟩
  nameless := rfl
  fallback _ _ _ here := nomatch here
  opened _ _ _ _ here := nomatch here

/-! A stored price is used by the next event of its symbol. -/

def bareEvent (symbol : String) (nonempty : symbol ≠ "") : Event where
  data := { entries := [("symbol", .str symbol)], unique := List.nodup_singleton _ }
  symbol := symbol
  named := rfl
  nonempty := nonempty
  priced := by
    intro key member value read
    rcases List.mem_pair.mp member with rfl | rfl <;> exact nomatch (show none = some value from read)

theorem compute_bareEvent {symbol : String} (nonempty : symbol ≠ "") (price : ℚ) :
    ∃ commit, Task.compute (bareEvent symbol nonempty) Processor.bareSnapshot (.num 0) (.num 0) (.num price) =
      .committing commit := by
  let handling : Handling :=
    { event :=
        { data := (bareEvent symbol nonempty).data
          symbolText := fun _ named _ => ⟨symbol, (Option.some.inj named).symm⟩ }
      boundaryTime := 0
      openTime := 0
      snapshot := Processor.bareSnapshot
      avgVolume := .num 0
      freeFloat := .num 0 }
  have numeric : handling.Numeric :=
    { event := by
        intro key value other read
        have missing : (bareEvent symbol nonempty).data.get key = none := by
          simp [bareEvent, Dict.get, Ne.symm other]
        exact nomatch missing.symm.trans read
      avgVolume := ⟨0, rfl⟩
      freeFloat := .inr ⟨0, rfl⟩
      prevDay := fun _ present => nomatch present }
  obtain ⟨commit, computed⟩ := Option.isSome_iff_exists.mp (metrics_isSome numeric symbol ⟨price, rfl⟩)
  have same : metrics (bareEvent symbol nonempty).symbol (bareEvent symbol nonempty).data Processor.bareSnapshot
      (.num 0) (.num 0) (.num price) = some commit := computed
  exact ⟨commit, by rw [Task.compute, same]⟩

/-- A new call passes its checks; a reset of its own finds nothing. -/
theorem exists_snapshot (zone : ZoneInfo) (s : Cluster) (event : Event) :
    ∃ actions t, exec (step zone) actions s = some t ∧ t.call s.started = some (event, .task .snapshot) ∧
      t.store.openPrice = s.store.openPrice ∧ t.origin = s.origin ∧ s.resets ≤ t.resets := by
  let checks : List ClusterStep :=
    [.start event, .resume s.started (.reply .redis), .resume s.started (.reply .redis)]
  cases window : Task.openWindow zone s.now with
  | none =>
      refine ⟨checks, ?_⟩
      simp [checks, exec, step, Call.resume, Task.resume, note, window, Store.checkDayBoundary]
  | some today =>
      cases claimed : s.store.openReset today with
      | true =>
          refine ⟨checks ++ [.resume s.started (.reply .redis)], ?_⟩
          simp [checks, exec, step, Call.resume, Task.resume, note, window, claimed, Store.checkDayBoundary]
      | false =>
          refine ⟨checks ++ [.resume s.started (.reply .redis), .resume s.started (.page [] false),
            .resume s.started (.reply .redis)], ?_⟩
          simp [checks, exec, step, Call.resume, Task.resume, note, window, claimed, Store.checkDayBoundary]

theorem exists_write_of_stored (zone : ZoneInfo) (s : Cluster) {symbol : String} (nonempty : symbol ≠ "") {price : ℚ}
    (stored : s.store.openPrice symbol = some (.num price)) :
    ∃ actions final, exec (step zone) actions s = some final ∧
      ∃ write ∈ final.written, s.resets ≤ write.resets ∧ write.origin = s.origin symbol := by
  obtain ⟨commit, computed⟩ := compute_bareEvent nonempty price
  have named : (bareEvent symbol nonempty).symbol = symbol := rfl
  obtain ⟨checks, t, checked, here, prices, origins, later⟩ := exists_snapshot zone s (bareEvent symbol nonempty)
  have present : t.store.openPrice symbol = some (.num price) := (congrFun prices symbol).trans stored
  have update : ∃ actions final, exec (step zone) actions t = some final ∧
      ∃ write ∈ final.written, t.resets ≤ write.resets ∧ write.origin = t.origin symbol := by
    refine ⟨[.resume s.started (.reply (.snapshot Processor.bareSnapshot)), .resume s.started (.reply (.value (.num 0))),
      .resume s.started (.reply (.value (.num 0))), .resume s.started (.reply .redis),
      .resume s.started (.reply .redis)], ?_⟩
    simp [exec, step, Call.resume, Task.resume, note, here, named, present, computed]
  obtain ⟨actions, final, ran, write, member, after, origin⟩ := update
  exact ⟨checks ++ actions, final, exec_append.mpr ⟨t, checked, ran⟩, write, member, later.trans after,
    origin.trans (congrFun origins symbol)⟩

/-! The winner's pipeline. -/

theorem step_delete {today : ℤ} {found : List String} (winner : s.call k = some (event, .deleting today found))
    (executed : s.step zone (.resume k (.reply .redis)) = some t) :
    t.now = s.now ∧ t.resets = s.resets + 1 ∧ t.origin = s.origin ∧ t.held = s.held ∧ t.written = s.written ∧
      t.store.openPrice = (fun symbol => if symbol ∈ found then none else s.store.openPrice symbol) ∧
      t.call = Function.update s.call k (some (event, .task .snapshot)) := by
  simp only [step, winner, Call.resume, Task.resume, Option.map_some, Option.some.injEq] at executed
  subst executed
  exact ⟨rfl, rfl, rfl, rfl, rfl, rfl, rfl⟩

theorem renewed_of_clean {today : ℤ} {found : List String} (known : s.Known summer)
    (winner : s.call k = some (event, .deleting today found))
    (executed : s.step zone (.resume k (.reply .redis)) = some t) (clean : s.Clean found (openingOf summer today)) :
    t.Renewed t.resets (openingOf summer today) := by
  obtain ⟨now, resets, origin, held, written, prices, calls⟩ := step_delete winner executed
  refine ⟨?_, le_rfl, ?_, ?_, ?_⟩
  · rw [now]
    exact known.opened k event _ today winner rfl
  · intro symbol price stored
    rw [prices] at stored
    obtain ⟨missing, stored⟩ := Option.ite_none_left_eq_some.mp stored
    exact absurd (clean.found symbol price stored) missing
  · intro j other call here
    rw [calls] at here
    rw [held]
    rcases call_cases here with ⟨-, same⟩ | ⟨-, old⟩
    · cases same
      trivial
    · unfold keeps
      split
      case h_1 ticker average float price => exact clean.storing j other ticker average float price old
      case h_2 commit => exact absurd old (clean.committing j other commit)
      case h_3 => trivial
  · intro write member later
    rw [written] at member
    have before := known.stamped.written write member
    omega

theorem fallbackOpen_cases (event : Event) :
    Task.fallbackOpen event = .none ∨ ∃ q, Task.fallbackOpen event = .num q := by
  unfold Task.fallbackOpen readOr
  cases isOpen : event.data.get "open" with
  | some value => exact event.priced "open" (by simp) value isOpen
  | none =>
      cases isClose : event.data.get "close" with
      | some value => exact event.priced "close" (by simp) value isClose
      | none => exact .inr ⟨0, rfl⟩

section
variable {today : ℤ} {found : List String}

theorem call_after_delete (winner : s.call k = some (event, .deleting today found))
    (executed : s.step zone (.resume k (.reply .redis)) = some t) {j : Nat} {pair : Event × Call}
    (here : s.call j = some pair) (apart : pair ≠ (event, .deleting today found)) : t.call j = some pair := by
  obtain ⟨-, -, -, -, -, -, calls⟩ := step_delete winner executed
  have different : j ≠ k := by
    rintro rfl
    exact apart (Option.some.inj (here.symm.trans winner))
  rw [calls, Function.update_of_ne different, here]

variable (known : s.Known summer) (winner : s.call k = some (event, .deleting today found))
  (executed : s.step zone (.resume k (.reply .redis)) = some t)
  (renewing : ∀ later final, exec (step zone) later t = some final → ∀ write ∈ final.written,
    t.resets ≤ write.resets → write.origin.Since t.resets (openingOf summer today))

include known winner executed renewing

/-- A call at its pipeline would score with a price stored before. -/
theorem not_committing_of_renewing {j : Nat} {busy : Event} {commit : Commit} :
    s.call j ≠ some (busy, .task (.committing commit)) := by
  intro here
  obtain ⟨-, resets, -, held, -⟩ := step_delete winner executed
  have still := call_after_delete winner executed here nofun
  have one : ∃ final, exec (step zone) [.resume j (.reply .redis)] t = some final ∧
      ⟨commit, t.resets, t.held j⟩ ∈ final.written := by
    simp [exec, step, Call.resume, Task.resume, note, still]
  obtain ⟨final, ran, member⟩ := one
  have since := (renewing _ final ran _ member le_rfl).1
  have bound := known.stamped.held j
  simp only [held] at since
  omega

/-- A key the scan missed would be read by the symbol's next event. -/
theorem found_of_renewing {symbol : String} {price : ℚ} (stored : s.store.openPrice symbol = some (.num price)) :
    symbol ∈ found := by
  by_contra missing
  obtain ⟨-, resets, origin, -, -, prices, -⟩ := step_delete winner executed
  have left : t.store.openPrice symbol = some (.num price) := by
    rw [prices]
    exact (if_neg missing).trans stored
  have named : symbol ≠ "" := by
    rintro rfl
    exact nomatch known.nameless.symm.trans stored
  obtain ⟨later, final, ran, write, member, after, same⟩ := exists_write_of_stored zone t named left
  have since := (renewing later final ran write member after).1
  have bound := known.stamped.origin symbol
  rw [same, origin] at since
  omega

/-- A captured price would be stored, and read by the symbol's next event. -/
theorem captured_of_renewing {j : Nat} {busy : Event} {ticker : TickerSnapshot} {average float price : Value}
    (here : s.call j = some (busy, .task (.storingOpen ticker average float price))) (present : price ≠ .none) :
    openingOf summer today ≤ (s.held j).captured := by
  obtain ⟨-, -, -, held, -⟩ := step_delete winner executed
  have still := call_after_delete winner executed here nofun
  obtain ⟨q, rfl⟩ : ∃ q, price = .num q := by
    have fallback : price = Task.fallbackOpen busy := known.fallback j busy _ here
    rw [fallback] at present ⊢
    exact (fallbackOpen_cases busy).resolve_left present
  have one : ∃ u, exec (step zone) [.resume j (.reply .redis)] t = some u ∧
      u.store.openPrice busy.symbol = some (.num q) ∧ u.resets = t.resets ∧
        (u.origin busy.symbol).captured = (t.held j).captured := by
    simp [exec, step, Call.resume, Task.resume, note, still]
  obtain ⟨u, stored, isStored, sameResets, captured⟩ := one
  obtain ⟨later, final, ran, write, member, after, same⟩ := exists_write_of_stored zone u busy.nonempty isStored
  have since := (renewing _ final (exec_append.mpr ⟨u, stored, ran⟩) write member (sameResets ▸ after)).2
  rwa [same, captured, held] at since

theorem clean_of_renewing : s.Clean found (openingOf summer today) where
  committing _ _ _ := not_committing_of_renewing known winner executed renewing
  found _ _ := found_of_renewing known winner executed renewing
  storing _ _ _ _ _ _ := captured_of_renewing known winner executed renewing

end

/-- Of a reset executed in any run: every score written later, however the run
goes on, is over an open price stored since and captured after 9:30, exactly
when the pipeline executes cleanly. -/
theorem reset_iff_clean (summer : ℤ → Bool) (now : ℤ) (actions : List ClusterStep) {s t : Cluster} {k : Nat}
    {event : Event} {today : ℤ} {found : List String}
    (reached : exec (step (eastern summer)) actions (fresh now) = some s)
    (winner : s.call k = some (event, .deleting today found))
    (executed : s.step (eastern summer) (.resume k (.reply .redis)) = some t) :
    (∀ later final, exec (step (eastern summer)) later t = some final → ∀ write ∈ final.written,
      t.resets ≤ write.resets → write.origin.Since t.resets (openingOf summer today)) ↔
        s.Clean found (openingOf summer today) := by
  have known : s.Known summer :=
    exec_invariant (Known summer) (fun known one => known.step one) (known_fresh summer now) reached
  constructor
  · exact fun renewing => clean_of_renewing known winner executed renewing
  · intro clean later final ran
    have renewed : final.Renewed t.resets (openingOf summer today) :=
      exec_invariant _ (fun renewed one => renewed.step one) (renewed_of_clean known winner executed clean) ran
    exact renewed.written

/-- A call of 9:30:05 wins the reset, and its scan finds the symbols of one page. -/
def winReset (k : Nat) (symbols : List String) : List ClusterStep :=
  [.start (Processor.aggregate 100 2), .resume k (.reply .redis), .resume k (.reply .redis), .resume k (.reply .redis),
    .resume k (.page symbols false)]

def deletes (s : Cluster) (k : Nat) (today : ℤ) (found : List String) : Bool :=
  match s.call k with
  | some (_, .deleting day symbols) => day = today && symbols = found
  | _ => false

theorem exists_step_of_deletes (zone : ZoneInfo) {today : ℤ} {found : List String}
    (deletes : s.deletes k today found = true) :
    ∃ event t, s.call k = some (event, .deleting today found) ∧ s.step zone (.resume k (.reply .redis)) = some t := by
  unfold Cluster.deletes at deletes
  split at deletes
  case h_1 event day symbols here =>
    obtain ⟨sameDay, sameFound⟩ := Bool.and_eq_true_iff.mp deletes
    cases of_decide_eq_true sameDay
    cases of_decide_eq_true sameFound
    have moves : (s.step zone (.resume k (.reply .redis))).isSome = true := by
      simp [step, here, Call.resume, Task.resume]
    obtain ⟨t, executed⟩ := Option.isSome_iff_exists.mp moves
    exact ⟨event, t, here, executed⟩
  case h_2 => cases deletes

theorem reset_iff_clean_alone :
    ∃ s t, exec (step americaNewYork) (winReset 0 []) (fresh 1699972205) = some s ∧
      s.step americaNewYork (.resume 0 (.reply .redis)) = some t ∧
        ((∀ later final, exec (step americaNewYork) later t = some final → ∀ write ∈ final.written,
          t.resets ≤ write.resets → write.origin.Since t.resets (openingOf daylightSaving 19675)) ↔
            s.Clean [] (openingOf daylightSaving 19675)) := by
  have ends : (exec (step americaNewYork) (winReset 0 []) (fresh 1699972205)).any (deletes · 0 19675 []) = true := by
    decide +kernel
  obtain ⟨s, reached, wins⟩ := (Option.any_eq_true _ _).mp ends
  obtain ⟨event, t, winner, executed⟩ := exists_step_of_deletes americaNewYork wins
  exact ⟨s, t, reached, executed, reset_iff_clean daylightSaving 1699972205 (winReset 0 []) reached winner executed⟩

/-- A call that stored its open price at 9:29:50 runs its pipeline after the reset. -/
theorem old_price_scores_after_reset :
    ∃ actions s t event today found later final,
      exec (step americaNewYork) actions (fresh 1699972190) = some s ∧
        s.call 1 = some (event, .deleting today found) ∧
        s.step americaNewYork (.resume 1 (.reply .redis)) = some t ∧
        exec (step americaNewYork) later t = some final ∧
          ∃ write ∈ final.written, t.resets ≤ write.resets ∧
            ¬write.origin.Since t.resets (openingOf daylightSaving today) := by
  let early : List ClusterStep :=
    [.start (Processor.aggregate 100 1), .resume 0 (.reply .redis), .resume 0 (.reply .redis),
      .resume 0 (.reply (.snapshot Processor.bareSnapshot)), .resume 0 (.reply (.value (.num 0))),
      .resume 0 (.reply (.value (.num 0))), .resume 0 (.reply .redis), .resume 0 (.reply .redis)]
  have ends : (exec (step americaNewYork) (early ++ [.advance 15] ++ winReset 1 ["AAPL"]) (fresh 1699972190)).any
      (fun s => s.deletes 1 19675 ["AAPL"] && (s.step americaNewYork (.resume 1 (.reply .redis))).any fun t =>
        (exec (step americaNewYork) [.resume 0 (.reply .redis)] t).any fun final => final.written.any fun write =>
          decide (t.resets ≤ write.resets ∧ ¬write.origin.Since t.resets (openingOf daylightSaving 19675))) = true := by
    decide +kernel
  obtain ⟨s, reached, facts⟩ := (Option.any_eq_true _ _).mp ends
  obtain ⟨wins, goesOn⟩ := Bool.and_eq_true_iff.mp facts
  obtain ⟨event, -, winner, -⟩ := exists_step_of_deletes americaNewYork wins
  obtain ⟨t, executed, ends⟩ := (Option.any_eq_true _ _).mp goesOn
  obtain ⟨final, ran, stale⟩ := (Option.any_eq_true _ _).mp ends
  obtain ⟨write, member, stale⟩ := List.any_eq_true.mp stale
  exact ⟨_, s, t, event, 19675, ["AAPL"], _, final, reached, winner, executed, ran, write, member,
    of_decide_eq_true stale⟩

end Cluster

end KuhlHausMdp.LeaderboardAnalyzer
