import Mathlib.Data.List.Nodup
import Mathlib.Logic.Function.Basic
import KuhlHausMdp.Library.Dict
import KuhlHausMdp.Library.Transition
import KuhlHausMdp.MassiveDataQueues

/-! The connections of the two publishers, `MassiveDataQueues` and
`FinlightDataQueues`: `connect`, `setup_queues` and `shutdown`, each of which may
fail at any of its calls. The two classes differ in the names of their queues. -/

set_option autoImplicit false

namespace KuhlHausMdp

namespace FinlightDataQueue

def NEWS : String := "news"

end FinlightDataQueue

/-- Connections and channels are numbered as they are made. `connections` and
`opened` tell how many there were, `isOpen` and `channelOpen` which of them have
not been closed, `channelConnection` on which connection a channel was opened. -/
structure DataQueues where
  connections : Nat
  isOpen : Nat → Bool
  opened : Nat
  channelOpen : Nat → Bool
  channelConnection : Nat → Nat
  connection : Option Nat
  channels : Dict String Nat
  exchanges : Dict String Nat
  connected : Bool

namespace DataQueues

open Transition

/-- Which of the awaited calls of `connect` or `setup_queues` return. -/
structure ConnectCalls where
  connectRobust : Bool
  channel : String → Bool
  declareQueue : String → Bool

structure ShutdownCalls where
  closeChannel : String → Bool
  closeConnection : Bool

def fresh : DataQueues where
  connections := 0
  isOpen _ := false
  opened := 0
  channelOpen _ := false
  channelConnection _ := 0
  connection := none
  channels := ∅
  exchanges := ∅
  connected := false

/-- `self.connection = await connect_robust(..)`. -/
def newConnection (s : DataQueues) : DataQueues := { s with
  connections := s.connections + 1
  isOpen := Function.update s.isOpen s.connections true
  connection := some s.connections }

/-- A channel of the connection, stored under the queue with its exchange. -/
def openChannel (s : DataQueues) (connection : Nat) (queue : String) : DataQueues := { s with
  opened := s.opened + 1
  channelOpen := Function.update s.channelOpen s.opened true
  channelConnection := Function.update s.channelConnection s.opened connection
  channels := s.channels.set queue s.opened
  exchanges := s.exchanges.set queue s.opened }

def closeChannel (s : DataQueues) (channel : Nat) : DataQueues :=
  { s with channelOpen := Function.update s.channelOpen channel false }

/-- The loop over the queues; false when it raises. `declares` is whether each
queue is declared right after its channel is opened. -/
def openChannels (calls : ConnectCalls) (declares : Bool) (connection : Nat) :
    List String → DataQueues → Bool × DataQueues
  | [], s => (true, s)
  | queue :: rest, s =>
      if calls.channel queue then
        if declares ∧ calls.declareQueue queue = false then (false, s.openChannel connection queue)
        else openChannels calls declares connection rest (s.openChannel connection queue)
      else (false, s)

def connect (queues : List String) (calls : ConnectCalls) (s : DataQueues) : Bool × DataQueues :=
  if calls.connectRobust then
    match openChannels calls false s.connections queues s.newConnection with
    | (true, s) =>
        -- the queues are declared passively, all on the first channel
        if queues.all calls.declareQueue then (true, { s with connected := true }) else (false, s)
    | (false, s) => (false, s)
  else (false, s)

def setupQueues (queues : List String) (calls : ConnectCalls) (s : DataQueues) : Bool × DataQueues :=
  if calls.connectRobust then
    match openChannels calls true s.connections queues s.newConnection with
    | (true, s) => (true, { s with connected := true })
    | (false, s) => (false, s)
  else (false, s)

def closeChannels (calls : ShutdownCalls) : List (String × Nat) → DataQueues → Bool × DataQueues
  | [], s => (true, s)
  | (queue, channel) :: rest, s =>
      if calls.closeChannel queue then closeChannels calls rest (s.closeChannel channel) else (false, s)

/-- The tables are emptied once every channel is closed. Before any `connect`
there is no attribute `connection`. -/
def shutdown (calls : ShutdownCalls) (s : DataQueues) : Bool × DataQueues :=
  match closeChannels calls s.channels.entries { s with connected := false } with
  | (false, s) => (false, s)
  | (true, s) =>
      let s := { s with channels := ∅, exchanges := ∅ }
      match s.connection with
      | none => (false, s)
      | some connection =>
          if calls.closeConnection then (true, { s with isOpen := Function.update s.isOpen connection false })
          else (false, s)

inductive Action where
  | connect (calls : ConnectCalls)
  | setupQueues (calls : ConnectCalls)
  | shutdown (calls : ShutdownCalls)

def step (queues : List String) (s : DataQueues) : Action → Option DataQueues
  | .connect calls => some (s.connect queues calls).2
  | .setupQueues calls => some (s.setupQueues queues calls).2
  | .shutdown calls => some (s.shutdown calls).2

/-- A channel can carry messages: neither it nor its connection was closed. -/
def Live (s : DataQueues) (channel : Nat) : Prop :=
  s.channelOpen channel = true ∧ s.isOpen (s.channelConnection channel) = true

instance (s : DataQueues) (channel : Nat) : Decidable (s.Live channel) := inferInstanceAs (Decidable (_ ∧ _))

/-- Whatever is open is at hand to be closed: the connection as `connection`,
every channel under the name of a queue. -/
structure Held (s : DataQueues) : Prop where
  connection : ∀ i, s.isOpen i = true → s.connection = some i
  channel : ∀ c, s.Live c → ∃ queue, s.channels.get queue = some c

def NotReplacing (s : DataQueues) : Action → Prop
  | .connect calls => calls.connectRobust = true → ∀ i, s.isOpen i = false
  | .setupQueues calls => calls.connectRobust = true → ∀ i, s.isOpen i = false
  | .shutdown _ => True

/-- The tables of a publisher for these queues, and the numbering. -/
structure Tables (queues : List String) (s : DataQueues) : Prop where
  same : s.exchanges = s.channels
  known : ∀ queue ∈ s.channels, queue ∈ queues
  connected : s.connected = true → ∀ queue ∈ queues, queue ∈ s.channels
  current : ∀ i, s.connection = some i → i < s.connections
  closed : ∀ i, s.connections ≤ i → s.isOpen i = false
  unopened : ∀ c, s.opened ≤ c → s.channelOpen c = false
  made : ∀ c, s.channelOpen c = true → s.channelConnection c < s.connections

/-! The loop over the queues. -/

variable {calls : ConnectCalls} {declares : Bool} {connection : Nat} {queues : List String} {s : DataQueues}

theorem openChannels_kept {P : DataQueues → Prop}
    (kept : ∀ {s : DataQueues} {queue}, queue ∈ queues → P s → P (s.openChannel connection queue)) (start : P s) :
    P (openChannels calls declares connection queues s).2 := by
  induction queues generalizing s with
  | nil => exact start
  | cons queue rest ih =>
      have next : P (s.openChannel connection queue) := kept List.mem_cons_self start
      unfold openChannels
      split
      · split
        · exact next
        · exact ih (fun member => kept (List.mem_cons_of_mem _ member)) next
      · exact start

theorem mem_channels_of_openChannels (returned : (openChannels calls declares connection queues s).1 = true) :
    ∀ queue, queue ∈ queues ∨ queue ∈ s.channels →
      queue ∈ (openChannels calls declares connection queues s).2.channels := by
  induction queues generalizing s with
  | nil => intro queue member; exact member.resolve_left List.not_mem_nil
  | cons first rest ih =>
      unfold openChannels at returned ⊢
      split at returned
      · split at returned
        · cases returned
        · rename_i accepted declared
          rw [if_pos accepted, if_neg declared]
          intro queue member
          apply ih returned
          rw [List.mem_cons] at member
          change _ ∨ queue ∈ s.channels.set first s.opened
          rw [Dict.mem_set]
          tauto
      · cases returned

structure SameConnections (s t : DataQueues) : Prop where
  connections : t.connections = s.connections
  isOpen : t.isOpen = s.isOpen
  connection : t.connection = s.connection
  connected : t.connected = s.connected

theorem sameConnections_openChannels (calls : ConnectCalls) (declares : Bool) (connection : Nat) (queues : List String)
    (s : DataQueues) : SameConnections s (openChannels calls declares connection queues s).2 :=
  openChannels_kept (P := SameConnections s) (fun _ same => ⟨same.1, same.2, same.3, same.4⟩) ⟨rfl, rfl, rfl, rfl⟩

theorem Tables.openChannel {queue : String} (tables : Tables queues s) (known : queue ∈ queues)
    (made : connection < s.connections) : Tables queues (s.openChannel connection queue) where
  same := congrArg (·.set queue s.opened) tables.same
  known other member := by
    rcases Dict.mem_set.mp member with rfl | older
    · exact known
    · exact tables.known other older
  connected flag other member := Dict.mem_set.mpr (.inr (tables.connected flag other member))
  current := tables.current
  closed := tables.closed
  unopened c beyond := by
    have apart : c ≠ s.opened := by
      rintro rfl
      exact absurd beyond (by simp [DataQueues.openChannel])
    change Function.update s.channelOpen s.opened true c = false
    rw [Function.update_of_ne apart]
    apply tables.unopened
    exact Nat.le_of_succ_le beyond
  made c isOpen := by
    change Function.update s.channelConnection s.opened connection c < s.connections
    by_cases new : c = s.opened
    · subst new
      rwa [Function.update_self]
    · rw [Function.update_of_ne new]
      change Function.update s.channelOpen s.opened true c = true at isOpen
      rw [Function.update_of_ne new] at isOpen
      exact tables.made c isOpen

theorem Tables.newConnection (tables : Tables queues s) : Tables queues s.newConnection where
  same := tables.same
  known := tables.known
  connected := tables.connected
  current i new := by
    cases new
    exact Nat.lt_succ_self _
  closed i beyond := by
    have apart : i ≠ s.connections := fun same => absurd (same ▸ beyond) (Nat.not_succ_le_self _)
    change Function.update s.isOpen s.connections true i = false
    rw [Function.update_of_ne apart]
    exact tables.closed i (Nat.le_of_succ_le beyond)
  unopened := tables.unopened
  made c isOpen := Nat.lt_succ_of_lt (tables.made c isOpen)

theorem Tables.afterLoop (tables : Tables queues s) (calls : ConnectCalls) (declares : Bool) :
    Tables queues (openChannels calls declares s.connections queues s.newConnection).2 := by
  have both : Tables queues (openChannels calls declares s.connections queues s.newConnection).2 ∧
      s.connections < (openChannels calls declares s.connections queues s.newConnection).2.connections := by
    apply openChannels_kept (P := fun t => Tables queues t ∧ s.connections < t.connections)
    · intro t queue member kept
      exact ⟨kept.1.openChannel member kept.2, kept.2⟩
    · exact ⟨tables.newConnection, Nat.lt_succ_self _⟩
  exact both.1

/-- `connect` and `setup_queues`: nothing, or the loop on a new connection, and
then the flag at most. -/
inductive Connecting (queues : List String) (s : DataQueues) (calls : ConnectCalls) : Bool × DataQueues → Prop where
  | refused (raised : calls.connectRobust = false) : Connecting queues s calls (false, s)
  | broken (declares : Bool) (returned : calls.connectRobust = true) :
      Connecting queues s calls (false, (openChannels calls declares s.connections queues s.newConnection).2)
  | connected (declares : Bool) (returned : calls.connectRobust = true)
      (opened : (openChannels calls declares s.connections queues s.newConnection).1 = true) :
      Connecting queues s calls
        (true, { (openChannels calls declares s.connections queues s.newConnection).2 with connected := true })

theorem connecting_connect (queues : List String) (s : DataQueues) (calls : ConnectCalls) :
    Connecting queues s calls (s.connect queues calls) := by
  unfold connect
  split
  · rename_i returned
    split
    · rename_i t ended
      have opened := congrArg Prod.fst ended
      have last : _ = t := congrArg Prod.snd ended
      subst last
      split
      · exact .connected false returned opened
      · exact .broken false returned
    · rename_i t ended
      have last : _ = t := congrArg Prod.snd ended
      subst last
      exact .broken false returned
  · rename_i raised
    exact .refused (by simpa using raised)

theorem connecting_setupQueues (queues : List String) (s : DataQueues) (calls : ConnectCalls) :
    Connecting queues s calls (s.setupQueues queues calls) := by
  unfold setupQueues
  split
  · rename_i returned
    split
    · rename_i t ended
      have opened := congrArg Prod.fst ended
      have last : _ = t := congrArg Prod.snd ended
      subst last
      exact .connected true returned opened
    · rename_i t ended
      have last : _ = t := congrArg Prod.snd ended
      subst last
      exact .broken true returned
  · rename_i raised
    exact .refused (by simpa using raised)

theorem Tables.connecting {outcome : Bool × DataQueues} (tables : Tables queues s)
    (called : Connecting queues s calls outcome) : Tables queues outcome.2 := by
  cases called with
  | refused => exact tables
  | broken declares => exact tables.afterLoop calls declares
  | connected declares returned opened =>
      have after := tables.afterLoop calls declares
      exact ⟨after.same, after.known, fun _ queue member => mem_channels_of_openChannels opened queue (.inl member),
        after.current, after.closed, after.unopened, after.made⟩

/-! `shutdown`. -/

section

variable {closing : ShutdownCalls}

theorem closeChannels_kept {P : DataQueues → Prop} {entries : List (String × Nat)}
    (kept : ∀ {s : DataQueues} {channel}, P s → P (s.closeChannel channel)) (start : P s) :
    P (closeChannels closing entries s).2 := by
  induction entries generalizing s with
  | nil => exact start
  | cons entry rest ih =>
      unfold closeChannels
      split
      · exact ih (kept start)
      · exact start

structure OnlyCloses (s t : DataQueues) : Prop where
  same : SameConnections s t
  channels : t.channels = s.channels
  exchanges : t.exchanges = s.exchanges
  opened : t.opened = s.opened
  connectionOf : t.channelConnection = s.channelConnection
  closes : ∀ c, t.channelOpen c = true → s.channelOpen c = true

theorem onlyCloses_closeChannels (closing : ShutdownCalls) (entries : List (String × Nat)) (s : DataQueues) :
    OnlyCloses s (closeChannels closing entries s).2 := by
  apply closeChannels_kept (P := OnlyCloses s)
  · intro t channel only
    refine ⟨⟨only.same.1, only.same.2, only.same.3, only.same.4⟩, only.2, only.3, only.4, only.5, fun c isOpen => ?_⟩
    change Function.update t.channelOpen channel false c = true at isOpen
    by_cases here : c = channel
    · subst here
      simp at isOpen
    · rw [Function.update_of_ne here] at isOpen
      exact only.closes c isOpen
  · exact ⟨⟨rfl, rfl, rfl, rfl⟩, rfl, rfl, rfl, rfl, fun _ => id⟩

theorem closed_of_closeChannels {entries : List (String × Nat)} {queue : String} {channel : Nat}
    (member : (queue, channel) ∈ entries) (returned : (closeChannels closing entries s).1 = true) :
    (closeChannels closing entries s).2.channelOpen channel = false := by
  induction entries generalizing s with
  | nil => cases member
  | cons entry rest ih =>
      unfold closeChannels at returned ⊢
      split at returned
      · rename_i closes
        rw [if_pos closes]
        rcases List.mem_cons.mp member with rfl | later
        · have only := onlyCloses_closeChannels closing rest (s.closeChannel channel)
          by_contra still
          have before := only.closes channel (by simpa using still)
          simp [closeChannel] at before
        · exact ih later returned
      · cases returned

/-- What `shutdown` comes to: a close that fails leaves the tables, a failing
close of the connection leaves the connection, the rest is closed. -/
inductive ShuttingDown (s : DataQueues) (closing : ShutdownCalls) : Bool × DataQueues → Prop where
  | broken {t : DataQueues} (only : OnlyCloses { s with connected := false } t) : ShuttingDown s closing (false, t)
  | emptied {t : DataQueues} (only : OnlyCloses { s with connected := false } t)
      (all : ∀ queue channel, s.channels.get queue = some channel → t.channelOpen channel = false) :
      ShuttingDown s closing (false, { t with channels := ∅, exchanges := ∅ })
  | closed {t : DataQueues} {connection : Nat} (only : OnlyCloses { s with connected := false } t)
      (all : ∀ queue channel, s.channels.get queue = some channel → t.channelOpen channel = false)
      (current : s.connection = some connection) :
      ShuttingDown s closing
        (true, { t with channels := ∅, exchanges := ∅, isOpen := Function.update t.isOpen connection false })

theorem shuttingDown (s : DataQueues) (closing : ShutdownCalls) : ShuttingDown s closing (s.shutdown closing) := by
  have only := onlyCloses_closeChannels closing s.channels.entries { s with connected := false }
  have all (returned : (closeChannels closing s.channels.entries { s with connected := false }).1 = true)
      (queue : String) (channel : Nat) (found : s.channels.get queue = some channel) :=
    closed_of_closeChannels (Dict.get_eq_some_iff.mp found) returned
  unfold shutdown
  split
  · rename_i t ended
    have last : _ = t := congrArg Prod.snd ended
    subst last
    exact .broken only
  · rename_i t ended
    have returned := congrArg Prod.fst ended
    have last : _ = t := congrArg Prod.snd ended
    subst last
    simp only
    split
    · exact .emptied only (all returned)
    · rename_i connection current
      split
      · exact .closed only (all returned) (only.same.connection ▸ current)
      · exact .emptied only (all returned)

theorem Tables.shuttingDown {outcome : Bool × DataQueues} (tables : Tables queues s)
    (called : ShuttingDown s closing outcome) : Tables queues outcome.2 := by
  -- what closing channels leaves of the tables
  have after {t : DataQueues} (only : OnlyCloses { s with connected := false } t) : Tables queues t := by
    obtain ⟨⟨connections, isOpen, connection, connected⟩, channels, exchanges, opened, connectionOf, closes⟩ := only
    refine ⟨?_, ?_, ?_, ?_, ?_, fun c beyond => ?_, fun c still => ?_⟩
    · rw [channels, exchanges]
      exact tables.same
    · rw [channels]
      exact tables.known
    · rw [connected]
      exact nofun
    · rw [connection, connections]
      exact tables.current
    · rw [connections, isOpen]
      exact tables.closed
    · rw [opened] at beyond
      by_contra still
      exact absurd (tables.unopened c beyond) (by simpa using closes c (by simpa using still))
    · rw [connectionOf, connections]
      exact tables.made c (closes c still)
  cases called with
  | broken only => exact after only
  | emptied only all =>
      obtain ⟨_, _, connected, current, closed, unopened, made⟩ := after only
      have flag := only.same.connected
      exact ⟨rfl, fun _ none => absurd none (Dict.notMem_empty _), fun on => absurd on (by simp [flag]), current,
        closed, unopened, made⟩
  | @closed t connection only all _ =>
      obtain ⟨_, _, connected, current, closed, unopened, made⟩ := after only
      have flag := only.same.connected
      refine ⟨rfl, fun _ none => absurd none (Dict.notMem_empty _), fun on => absurd on (by simp [flag]), current,
        fun i beyond => ?_, unopened, made⟩
      change Function.update t.isOpen connection false i = false
      rw [Function.update_apply]
      split
      · rfl
      · exact closed i beyond

end

theorem Tables.step {next : DataQueues} {action : Action} (tables : Tables queues s)
    (one : step queues s action = some next) : Tables queues next := by
  cases action with
  | connect calls =>
      cases one
      exact tables.connecting (connecting_connect queues s calls)
  | setupQueues calls =>
      cases one
      exact tables.connecting (connecting_setupQueues queues s calls)
  | shutdown calls =>
      cases one
      exact tables.shuttingDown (DataQueues.shuttingDown s calls)

theorem tables_fresh (queues : List String) : Tables queues fresh :=
  ⟨rfl, fun _ none => absurd none (Dict.notMem_empty _), nofun, nofun, fun _ _ => rfl, fun _ _ => rfl, nofun⟩

/-! Who holds what is open. -/

theorem held_fresh : fresh.Held := ⟨nofun, fun _ live => absurd live.1 (by simp [fresh])⟩

theorem held_openChannels (distinct : queues.Nodup)
    (start : ∀ c, s.Live c → ∃ queue, queue ∉ queues ∧ s.channels.get queue = some c) (c : Nat)
    (live : (openChannels calls declares connection queues s).2.Live c) :
    ∃ queue, (openChannels calls declares connection queues s).2.channels.get queue = some c := by
  induction queues generalizing s with
  | nil =>
      obtain ⟨queue, -, found⟩ := start c live
      exact ⟨queue, found⟩
  | cons first rest ih =>
      obtain ⟨apart, distinct⟩ := List.nodup_cons.mp distinct
      have next (c : Nat) (live : (s.openChannel connection first).Live c) :
          ∃ queue, queue ∉ rest ∧ (s.openChannel connection first).channels.get queue = some c := by
        change ∃ queue, queue ∉ rest ∧ (s.channels.set first s.opened).get queue = some c
        by_cases new : c = s.opened
        · exact ⟨first, apart, by rw [new, Dict.get_set_self]⟩
        · have before : s.Live c := by
            obtain ⟨isOpen, connected⟩ := live
            change Function.update s.channelOpen s.opened true c = true at isOpen
            change s.isOpen (Function.update s.channelConnection s.opened connection c) = true at connected
            rw [Function.update_of_ne new] at isOpen connected
            exact ⟨isOpen, connected⟩
          obtain ⟨queue, other, found⟩ := start c before
          rw [List.mem_cons, not_or] at other
          exact ⟨queue, other.2, by rw [Dict.get_set_of_ne _ other.1, found]⟩
      unfold openChannels at live ⊢
      split at live
      · rename_i accepted
        rw [if_pos accepted]
        split at live
        · rename_i refused
          rw [if_pos refused]
          obtain ⟨queue, -, found⟩ := next c live
          exact ⟨queue, found⟩
        · rename_i declared
          rw [if_neg declared]
          exact ih distinct next live
      · rename_i refused
        rw [if_neg refused]
        obtain ⟨queue, -, found⟩ := start c live
        exact ⟨queue, found⟩

theorem Tables.held_afterLoop (tables : Tables queues s) (distinct : queues.Nodup)
    (idle : ∀ i, s.isOpen i = false) (calls : ConnectCalls) (declares : Bool) :
    (openChannels calls declares s.connections queues s.newConnection).2.Held := by
  have same := sameConnections_openChannels calls declares s.connections queues s.newConnection
  have only (i : Nat) (isOpen : s.newConnection.isOpen i = true) : i = s.connections := by
    by_contra apart
    change Function.update s.isOpen s.connections true i = true at isOpen
    rw [Function.update_of_ne apart, idle i] at isOpen
    cases isOpen
  constructor
  · intro i isOpen
    rw [same.isOpen] at isOpen
    rw [same.connection, only i isOpen]
    rfl
  · apply held_openChannels distinct
    intro c live
    -- a channel of before belongs to a connection that is closed
    exact absurd (tables.made c live.1) (by rw [← only _ live.2]; exact Nat.lt_irrefl _)

theorem Held.connecting {outcome : Bool × DataQueues} (held : s.Held) (tables : Tables queues s)
    (distinct : queues.Nodup) (idle : calls.connectRobust = true → ∀ i, s.isOpen i = false)
    (called : Connecting queues s calls outcome) : outcome.2.Held := by
  cases called with
  | refused => exact held
  | broken declares returned => exact tables.held_afterLoop distinct (idle returned) calls declares
  | connected declares returned =>
      have after := tables.held_afterLoop distinct (idle returned) calls declares
      exact ⟨after.connection, after.channel⟩

section

variable {closing : ShutdownCalls}

theorem Held.closed_of_shutdown (held : s.Held) (returned : (s.shutdown closing).1 = true) (i : Nat) :
    (s.shutdown closing).2.isOpen i = false := by
  have called := shuttingDown s closing
  generalize s.shutdown closing = outcome at called returned
  cases called with
  | broken => cases returned
  | emptied => cases returned
  | @closed t connection only all current =>
      change Function.update t.isOpen connection false i = false
      by_cases here : i = connection
      · rw [here, Function.update_self]
      · rw [Function.update_of_ne here]
        by_contra still
        have before : s.isOpen i = true := by
          rw [only.same.isOpen] at still
          simpa using still
        exact here (Option.some.inj ((held.connection i before).symm.trans current))

theorem Held.shuttingDown {outcome : Bool × DataQueues} (held : s.Held) (called : ShuttingDown s closing outcome) :
    outcome.2.Held := by
  have before {t : DataQueues} (only : OnlyCloses { s with connected := false } t) {c : Nat} (live : t.Live c) :
      s.Live c := by
    refine ⟨only.closes c live.1, ?_⟩
    have isOpen := live.2
    rw [only.connectionOf, only.same.isOpen] at isOpen
    exact isOpen
  cases called with
  | @broken t only =>
      constructor
      · intro i isOpen
        change t.isOpen i = true at isOpen
        rw [only.same.isOpen] at isOpen
        exact only.same.connection.trans (held.connection i isOpen)
      · intro c live
        obtain ⟨queue, found⟩ := held.channel c (before only live)
        exact ⟨queue, (congrArg (·.get queue) only.channels).trans found⟩
  | @emptied t only all =>
      constructor
      · intro i isOpen
        change t.isOpen i = true at isOpen
        rw [only.same.isOpen] at isOpen
        exact only.same.connection.trans (held.connection i isOpen)
      · intro c live
        obtain ⟨queue, found⟩ := held.channel c (before only live)
        exact absurd live.1 (by simp [all queue c found])
  | @closed t connection only all current =>
      have none (i : Nat) : Function.update t.isOpen connection false i = true → False := by
        intro isOpen
        by_cases here : i = connection
        · rw [here, Function.update_self] at isOpen
          cases isOpen
        · rw [Function.update_of_ne here, only.same.isOpen] at isOpen
          exact here (Option.some.inj ((held.connection i isOpen).symm.trans current))
      exact ⟨fun i isOpen => (none i isOpen).elim, fun c live => (none _ live.2).elim⟩

end

theorem Held.step {next : DataQueues} {action : Action} (held : s.Held) (tables : Tables queues s)
    (distinct : queues.Nodup) (idle : s.NotReplacing action) (one : step queues s action = some next) : next.Held := by
  cases action with
  | connect calls =>
      cases one
      exact held.connecting tables distinct idle (connecting_connect queues s calls)
  | setupQueues calls =>
      cases one
      exact held.connecting tables distinct idle (connecting_setupQueues queues s calls)
  | shutdown calls =>
      cases one
      exact held.shuttingDown (DataQueues.shuttingDown s calls)

def Leaked (s : DataQueues) (i : Nat) : Prop := s.isOpen i = true ∧ s.connection ≠ some i

theorem Tables.connecting_leaked {outcome : Bool × DataQueues} {i : Nat} (tables : Tables queues s)
    (isOpen : s.isOpen i = true) (called : Connecting queues s calls outcome) :
    outcome.2.isOpen i = true ∧
      (calls.connectRobust = true ∨ s.connection ≠ some i → outcome.2.connection ≠ some i) := by
  have old : i ≠ s.connections := by
    rintro rfl
    rw [tables.closed _ (Nat.le_refl _)] at isOpen
    cases isOpen
  have after (declares : Bool) :
      (openChannels calls declares s.connections queues s.newConnection).2.isOpen i = true ∧
      (openChannels calls declares s.connections queues s.newConnection).2.connection ≠ some i := by
    have same := sameConnections_openChannels calls declares s.connections queues s.newConnection
    rw [same.isOpen, same.connection]
    constructor
    · exact (Function.update_of_ne old _ _).trans isOpen
    · exact fun new => old (Option.some.inj new).symm
  cases called with
  | refused raised => exact ⟨isOpen, fun either => either.resolve_left (by simp [raised])⟩
  | broken declares => exact ⟨(after declares).1, fun _ => (after declares).2⟩
  | connected declares => exact ⟨(after declares).1, fun _ => (after declares).2⟩

/-- What has leaked stays open, whatever is called. -/
theorem Leaked.step {next : DataQueues} {action : Action} {i : Nat} (leaked : s.Leaked i) (tables : Tables queues s)
    (one : step queues s action = some next) : next.Leaked i := by
  obtain ⟨isOpen, apart⟩ := leaked
  cases action with
  | connect calls =>
      cases one
      have after := tables.connecting_leaked isOpen (connecting_connect queues s calls)
      exact ⟨after.1, after.2 (.inr apart)⟩
  | setupQueues calls =>
      cases one
      have after := tables.connecting_leaked isOpen (connecting_setupQueues queues s calls)
      exact ⟨after.1, after.2 (.inr apart)⟩
  | shutdown closing =>
      cases one
      have called := shuttingDown s closing
      generalize s.shutdown closing = outcome at called
      cases called with
      | broken only => exact ⟨(congrFun only.same.isOpen i).trans isOpen, only.same.connection ▸ apart⟩
      | emptied only => exact ⟨(congrFun only.same.isOpen i).trans isOpen, only.same.connection ▸ apart⟩
      | @closed t connection only all current =>
          have other : i ≠ connection := fun same => apart (same ▸ current)
          refine ⟨?_, only.same.connection ▸ apart⟩
          change Function.update t.isOpen connection false i = true
          rw [Function.update_of_ne other, only.same.isOpen]
          exact isOpen

/-- A call that replaces an open connection leaks it. -/
theorem leaked_of_replacing {next : DataQueues} {action : Action} (tables : Tables queues s)
    (replacing : ¬s.NotReplacing action) (one : step queues s action = some next) : ∃ i, next.Leaked i := by
  cases action with
  | connect calls =>
      cases one
      simp only [NotReplacing, Classical.not_imp, not_forall, Bool.not_eq_false] at replacing
      obtain ⟨returned, i, isOpen⟩ := replacing
      have after := tables.connecting_leaked isOpen (connecting_connect queues s calls)
      exact ⟨i, after.1, after.2 (.inl returned)⟩
  | setupQueues calls =>
      cases one
      simp only [NotReplacing, Classical.not_imp, not_forall, Bool.not_eq_false] at replacing
      obtain ⟨returned, i, isOpen⟩ := replacing
      have after := tables.connecting_leaked isOpen (connecting_setupQueues queues s calls)
      exact ⟨i, after.1, after.2 (.inl returned)⟩
  | shutdown => exact absurd trivial replacing

/-- After any calls of `connect`, `setup_queues` and `shutdown`, failing anywhere,
what is open is at hand to be closed just when no open connection was ever
replaced; a `shutdown` that returns then leaves no connection open. -/
theorem held_iff (distinct : queues.Nodup) {actions : List Action}
    (run : exec (step queues) actions fresh = some s) :
    (s.Held ↔ Along (step queues) NotReplacing actions fresh) ∧
      (s.Held → ∀ closing, (s.shutdown closing).1 = true → ∀ i, (s.shutdown closing).2.isOpen i = false) := by
  refine ⟨⟨fun held => ?_, fun permitted => ?_⟩, fun held closing returned => held.closed_of_shutdown returned⟩
  · apply along_of_unmarked (Tables queues) (fun s => ∃ i, s.Leaked i) _ _ _ (tables_fresh queues) run
    · rintro ⟨i, isOpen, apart⟩
      exact apart (held.connection i isOpen)
    · exact fun tables step => tables.step step
    · rintro _ _ _ tables ⟨i, leaked⟩ step
      exact ⟨i, leaked.step tables step⟩
    · exact leaked_of_replacing
  · have both : Tables queues s ∧ s.Held := by
      apply along_invariant (fun s => Tables queues s ∧ s.Held) _ ⟨tables_fresh queues, held_fresh⟩ permitted run
      exact fun kept idle step => ⟨kept.1.step step, kept.2.step kept.1 distinct idle step⟩
    exact both.2

/-- The second `connect` after a shutdown that failed at the connection. -/
def reconnected : List Action := [
  .connect ⟨true, fun _ => true, fun _ => true⟩, .shutdown ⟨fun _ => true, false⟩,
  .connect ⟨true, fun _ => true, fun _ => true⟩]

theorem held_reconnected : ∃ s, exec (step [FinlightDataQueue.NEWS]) reconnected fresh = some s ∧ s.isOpen 0 = true ∧
    (s.Held ↔ Along (step [FinlightDataQueue.NEWS]) NotReplacing reconnected fresh) := by
  obtain ⟨s, run, left⟩ : ∃ s, exec (step [FinlightDataQueue.NEWS]) reconnected fresh = some s ∧ s.isOpen 0 = true :=
    ⟨_, rfl, rfl⟩
  exact ⟨s, run, left, (held_iff (List.nodup_singleton _) run).1⟩

end DataQueues
end KuhlHausMdp
