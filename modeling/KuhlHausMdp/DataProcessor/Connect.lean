import Mathlib.Data.List.Basic

/-! `MassiveDataProcessor` and `FinlightDataProcessor` connect and start with the
same text: two flags, a cleanup when one of two services fails, and a retry loop
that skips what its flag calls connected. -/

set_option autoImplicit false

namespace KuhlHausMdp

/-- Connections, channels and Redis clients are numbered as they are created;
`connections`, `channels` and `clients` count them. -/
structure DataProcessor where
  rmqConnection : Option Nat
  rmqChannel : Option Nat
  redisClient : Option Nat
  mdqConnected : Bool
  mdcConnected : Bool
  connections : Nat
  channels : Nat
  clients : Nat
  closedConnections : List Nat
  closedChannels : List Nat
  pinged : List Nat
  deriving DecidableEq

abbrev MassiveDataProcessor := DataProcessor

abbrev FinlightDataProcessor := DataProcessor

namespace DataProcessor

def fresh : DataProcessor where
  rmqConnection := none
  rmqChannel := none
  redisClient := none
  mdqConnected := false
  mdcConnected := false
  connections := 0
  channels := 0
  clients := 0
  closedConnections := []
  closedChannels := []
  pinged := []

/-- Which of the awaited calls of one attempt return; the others raise. -/
structure Outcomes where
  connectRobust : Bool
  channel : Bool
  setQos : Bool
  getQueue : Bool
  fromUrl : Bool
  ping : Bool
  closeChannel : Bool

def Outcomes.rabbitMq (outcomes : Outcomes) : Bool :=
  outcomes.connectRobust && outcomes.channel && outcomes.setQos && outcomes.getQueue

def Outcomes.redis (outcomes : Outcomes) : Bool := outcomes.fromUrl && outcomes.ping

/-- Each step gives false when it raises. -/
def connectRabbitMq (self : DataProcessor) (outcomes : Outcomes) : Bool × DataProcessor :=
  if outcomes.connectRobust then
    let self := { self with rmqConnection := some self.connections, connections := self.connections + 1 }
    if outcomes.channel then
      let self := { self with rmqChannel := some self.channels, channels := self.channels + 1 }
      if outcomes.setQos && outcomes.getQueue then (true, { self with mdqConnected := true }) else (false, self)
    else (false, self)
  else (false, self)

/-- A channel or connection counts as closed once `close` is called on it. The
connection is left when closing the channel raises. -/
def cleanup (self : DataProcessor) (outcomes : Outcomes) : DataProcessor :=
  let self := { self with closedChannels := self.rmqChannel.toList ++ self.closedChannels }
  if outcomes.closeChannel then
    { self with closedConnections := self.rmqConnection.toList ++ self.closedConnections }
  else self

def connectRedis (self : DataProcessor) (outcomes : Outcomes) : Bool × DataProcessor :=
  if outcomes.fromUrl then
    let client := self.clients
    let self := { self with redisClient := some client, clients := client + 1 }
    if outcomes.ping then (true, { self with mdcConnected := true, pinged := client :: self.pinged })
    else (false, self.cleanup outcomes)
  else (false, self.cleanup outcomes)

def connect (self : DataProcessor) (force : Bool) (outcomes : Outcomes) : Bool × DataProcessor :=
  let (done, self) := if !self.mdqConnected || force then self.connectRabbitMq outcomes else (true, self)
  if done then
    if !self.mdcConnected || force then self.connectRedis outcomes else (true, self)
  else (false, self)

inductive Loop where
  | ended (self : DataProcessor)
  | raised (self : DataProcessor)
  | waiting (self : DataProcessor)
  deriving DecidableEq

/-- Five failures are retried, the sixth is raised. -/
def startLoop (self : DataProcessor) (retryCount : Nat) : List Outcomes → Loop
  | [] => if self.mdcConnected && self.mdqConnected then .ended self else .waiting self
  | outcomes :: rest =>
      if self.mdcConnected && self.mdqConnected then .ended self
      else match self.connect false outcomes with
        | (true, self) => startLoop self retryCount rest
        | (false, self) => if retryCount < 5 then startLoop self (retryCount + 1) rest else .raised self

/-- What a processor may rely on: its connection and channel are the last ones
created and not closed, and its client is one whose ping succeeded. -/
structure Sound (processor : DataProcessor) : Prop where
  connection : ∃ connection, processor.rmqConnection = some connection ∧ connection + 1 = processor.connections ∧
    connection ∉ processor.closedConnections
  channel : ∃ channel, processor.rmqChannel = some channel ∧ channel + 1 = processor.channels ∧
    channel ∉ processor.closedChannels
  client : ∃ client, processor.redisClient = some client ∧ client ∈ processor.pinged

/-- No attempt has had its RabbitMQ steps succeed, so nothing has been closed. -/
structure Unconnected (processor : DataProcessor) : Prop where
  mdq : processor.mdqConnected = false
  mdc : processor.mdcConnected = false
  connections : processor.closedConnections = []
  channels : processor.closedChannels = []

structure Broken (processor : DataProcessor) : Prop where
  mdq : processor.mdqConnected = true
  channel : ∃ channel, processor.rmqChannel = some channel ∧ channel ∈ processor.closedChannels

theorem Broken.not_sound {self : DataProcessor} (broken : self.Broken) : ¬self.Sound := by
  intro sound
  obtain ⟨channel, held, closed⟩ := broken.channel
  obtain ⟨other, same, _, isOpen⟩ := sound.channel
  cases held.symm.trans same
  exact isOpen closed

theorem Unconnected.fresh : DataProcessor.fresh.Unconnected := ⟨rfl, rfl, rfl, rfl⟩

theorem connectRabbitMq_fst (self : DataProcessor) (outcomes : Outcomes) :
    (self.connectRabbitMq outcomes).1 = outcomes.rabbitMq := by
  obtain ⟨connectRobust, channel, setQos, getQueue, _, _, _⟩ := outcomes
  cases connectRobust <;> cases channel <;> cases setQos <;> cases getQueue <;> rfl

theorem connectRedis_fst (self : DataProcessor) (outcomes : Outcomes) :
    (self.connectRedis outcomes).1 = outcomes.redis := by
  obtain ⟨_, _, _, _, fromUrl, ping, _⟩ := outcomes
  cases fromUrl <;> cases ping <;> rfl

theorem cleanup_spec (self : DataProcessor) (outcomes : Outcomes) :
    (self.cleanup outcomes).mdqConnected = self.mdqConnected ∧ (self.cleanup outcomes).rmqChannel = self.rmqChannel ∧
      (self.cleanup outcomes).closedChannels = self.rmqChannel.toList ++ self.closedChannels := by
  unfold cleanup
  cases outcomes.closeChannel <;> exact ⟨rfl, rfl, rfl⟩

/-- A failure of Redis always closes the channel and keeps the flag. -/
theorem Broken.of_redis_failure {self : DataProcessor} (connected : self.mdqConnected = true) {channel : Nat}
    (held : self.rmqChannel = some channel) {outcomes : Outcomes} (failed : outcomes.redis = false) :
    (self.connectRedis outcomes).2.Broken := by
  have cleaned : ∀ other : DataProcessor, other.mdqConnected = true → other.rmqChannel = some channel →
      (other.cleanup outcomes).Broken := by
    intro other mdq same
    obtain ⟨flag, channel', closed⟩ := cleanup_spec other outcomes
    exact ⟨flag.trans mdq, channel, channel'.trans same, by simp [closed, same]⟩
  unfold connectRedis
  cases made : outcomes.fromUrl with
  | false => exact cleaned self connected held
  | true =>
      have noPing : outcomes.ping = false := by simpa [Outcomes.redis, made] using failed
      simp only [noPing, if_true, Bool.false_eq_true, if_false]
      exact cleaned _ connected held

theorem connectRabbitMq_success {self : DataProcessor} {outcomes : Outcomes} (succeeded : outcomes.rabbitMq = true) :
    self.connectRabbitMq outcomes = (true,
      { self with
        rmqConnection := some self.connections
        connections := self.connections + 1
        rmqChannel := some self.channels
        channels := self.channels + 1
        mdqConnected := true }) := by
  simp only [Outcomes.rabbitMq, Bool.and_eq_true] at succeeded
  obtain ⟨⟨⟨connectRobust, channel⟩, setQos⟩, getQueue⟩ := succeeded
  simp [connectRabbitMq, connectRobust, channel, setQos, getQueue]

theorem connectRedis_success {self : DataProcessor} {outcomes : Outcomes} (succeeded : outcomes.redis = true) :
    (self.connectRedis outcomes).2 =
      { self with
        redisClient := some self.clients
        clients := self.clients + 1
        mdcConnected := true
        pinged := self.clients :: self.pinged } := by
  obtain ⟨made, answered⟩ := Bool.and_eq_true_iff.mp succeeded
  simp [connectRedis, made, answered]

theorem Broken.connect {self : DataProcessor} (broken : self.Broken) (outcomes : Outcomes) :
    (self.connect false outcomes).2.Broken := by
  obtain ⟨channel, held, closed⟩ := broken.channel
  simp only [DataProcessor.connect, broken.mdq, Bool.not_true, Bool.or_false, Bool.false_eq_true, if_false, if_true]
  cases self.mdcConnected with
  | true => exact broken
  | false =>
      cases redis : outcomes.redis with
      | false => exact .of_redis_failure broken.mdq held redis
      | true =>
          simp only [Bool.not_false, if_true]
          rw [connectRedis_success redis]
          exact ⟨broken.mdq, channel, held, closed⟩

theorem startLoop_cases {self final : DataProcessor} {retryCount : Nat} {outcomes : Outcomes} {rest : List Outcomes}
    (ended : self.startLoop retryCount (outcomes :: rest) = .ended final) :
    self.mdcConnected = true ∧ final = self ∨
      ∃ count, (self.connect false outcomes).2.startLoop count rest = .ended final := by
  simp only [startLoop] at ended
  split at ended
  case isTrue connected =>
    cases ended
    exact .inl ⟨(Bool.and_eq_true_iff.mp connected).1, rfl⟩
  case isFalse =>
    split at ended
    case h_1 after succeeded => exact .inr ⟨retryCount, by rwa [succeeded]⟩
    case h_2 after failed =>
      split at ended
      · exact .inr ⟨retryCount + 1, by rwa [failed]⟩
      · cases ended

theorem Broken.startLoop {self final : DataProcessor} (broken : self.Broken) {retryCount : Nat}
    {attempts : List Outcomes} (ended : self.startLoop retryCount attempts = .ended final) : final.Broken := by
  induction attempts generalizing self retryCount with
  | nil =>
      simp only [DataProcessor.startLoop] at ended
      split at ended
      · cases ended; exact broken
      · cases ended
  | cons outcomes rest ih =>
      rcases startLoop_cases ended with ⟨-, rfl⟩ | ⟨count, later⟩
      · exact broken
      · exact ih (broken.connect outcomes) later

theorem startLoop_connected {self : DataProcessor} (mdq : self.mdqConnected = true) (mdc : self.mdcConnected = true)
    (retryCount : Nat) (attempts : List Outcomes) : self.startLoop retryCount attempts = .ended self := by
  cases attempts <;> simp [DataProcessor.startLoop, mdq, mdc]

theorem Unconnected.connectRabbitMq {self : DataProcessor} (unconnected : self.Unconnected) {outcomes : Outcomes}
    (failed : outcomes.rabbitMq = false) : (self.connectRabbitMq outcomes).2.Unconnected := by
  obtain ⟨mdq, mdc, connections, channels⟩ := unconnected
  unfold DataProcessor.connectRabbitMq
  cases connected : outcomes.connectRobust with
  | false => exact ⟨mdq, mdc, connections, channels⟩
  | true =>
      cases opened : outcomes.channel with
      | false => exact ⟨mdq, mdc, connections, channels⟩
      | true =>
          have rest : (outcomes.setQos && outcomes.getQueue) = false := by
            simpa [Outcomes.rabbitMq, connected, opened] using failed
          simp only [rest, if_true, Bool.false_eq_true, if_false]
          exact ⟨mdq, mdc, connections, channels⟩

/-- While the RabbitMQ steps fail, Redis is not tried. -/
theorem Unconnected.connect {self : DataProcessor} (unconnected : self.Unconnected) {outcomes : Outcomes}
    (failed : outcomes.rabbitMq = false) : (self.connect false outcomes).2.Unconnected := by
  have raised := (connectRabbitMq_fst self outcomes).trans failed
  simp only [DataProcessor.connect, unconnected.mdq, Bool.not_false, Bool.true_or, if_true, raised, Bool.false_eq_true,
    if_false]
  exact unconnected.connectRabbitMq failed

/-- The first attempt that connects RabbitMQ decides: the processor is sound if
Redis answers in it too, and broken if not. -/
theorem Unconnected.connect_rabbitMq {self : DataProcessor} (unconnected : self.Unconnected) {outcomes : Outcomes}
    (succeeded : outcomes.rabbitMq = true) :
    if outcomes.redis then
      (self.connect false outcomes).2.Sound ∧ (self.connect false outcomes).2.mdqConnected = true ∧
        (self.connect false outcomes).2.mdcConnected = true
    else (self.connect false outcomes).2.Broken := by
  obtain ⟨mdq, mdc, connections, channels⟩ := unconnected
  simp only [DataProcessor.connect, mdq, Bool.not_false, Bool.true_or, if_true, connectRabbitMq_success succeeded, mdc]
  cases redis : outcomes.redis with
  | false => exact .of_redis_failure rfl rfl redis
  | true =>
      simp only [if_true]
      rw [connectRedis_success redis]
      refine ⟨⟨⟨_, rfl, rfl, ?_⟩, ⟨_, rfl, rfl, ?_⟩, _, rfl, List.mem_cons_self⟩, rfl, rfl⟩
      · simp [connections]
      · simp [channels]

theorem Unconnected.startLoop {self final : DataProcessor} (unconnected : self.Unconnected) {retryCount : Nat}
    {attempts : List Outcomes} (ended : self.startLoop retryCount attempts = .ended final) :
    final.Sound ↔ ∀ outcomes, attempts.find? Outcomes.rabbitMq = some outcomes → outcomes.redis = true := by
  induction attempts generalizing self retryCount with
  | nil => simp [DataProcessor.startLoop, unconnected.mdc] at ended
  | cons outcomes rest ih =>
      obtain ⟨count, later⟩ : ∃ count, (self.connect false outcomes).2.startLoop count rest = .ended final := by
        rcases startLoop_cases ended with ⟨connected, -⟩ | later
        · cases unconnected.mdc.symm.trans connected
        · exact later
      cases rabbitMq : outcomes.rabbitMq with
      | false =>
          -- nothing was connected, and the loop goes on as it began
          rw [List.find?_cons_of_neg (by simp [rabbitMq])]
          exact ih (unconnected.connect rabbitMq) later
      | true =>
          have now := unconnected.connect_rabbitMq rabbitMq
          rw [List.find?_cons_of_pos rabbitMq]
          simp only [Option.some.injEq, forall_eq']
          cases redis : outcomes.redis with
          | true =>
              simp only [redis, if_true] at now
              obtain ⟨sound, mdq, mdc⟩ := now
              rw [startLoop_connected mdq mdc] at later
              cases later
              simpa using sound
          | false =>
              simp only [redis, Bool.false_eq_true, if_false] at now
              simpa using (now.startLoop later).not_sound

/-- When the loop of `start` ends normally, the processor is sound exactly when
Redis answered in the first attempt that connected RabbitMQ. -/
theorem sound_iff_redis_answered_first {attempts : List Outcomes} {final : DataProcessor}
    (ended : fresh.startLoop 0 attempts = .ended final) :
    final.Sound ↔ ∀ outcomes, attempts.find? Outcomes.rabbitMq = some outcomes → outcomes.redis = true := by
  exact Unconnected.fresh.startLoop ended

def answering : Outcomes := ⟨true, true, true, true, true, true, true⟩

def redisDownFirst : List Outcomes := [{ answering with ping := false }, answering]

/-- The queue is missing at the first attempt, and there at the second. -/
def queueMissingFirst : List Outcomes := [{ answering with getQueue := false }, answering]

def connected : DataProcessor where
  rmqConnection := some 1
  rmqChannel := some 1
  redisClient := some 0
  mdqConnected := true
  mdcConnected := true
  connections := 2
  channels := 2
  clients := 1
  closedConnections := []
  closedChannels := []
  pinged := [0]

theorem sound_iff_redis_answered_first_queue_missing : connected.Sound := by
  have ended : fresh.startLoop 0 queueMissingFirst = .ended connected := by decide
  exact (sound_iff_redis_answered_first ended).mpr fun outcomes found => by
    obtain rfl : answering = outcomes := by simpa [queueMissingFirst, answering, Outcomes.rabbitMq] using found
    rfl

/-- The loop ends with a channel and a connection that `connect` closed. -/
theorem ends_with_closed_channel :
    ¬ ∀ (attempts : List Outcomes) (final : DataProcessor), fresh.startLoop 0 attempts = .ended final → final.Sound := by
  intro always
  have ended : fresh.startLoop 0 redisDownFirst = .ended
      { rmqConnection := some 0, rmqChannel := some 0, redisClient := some 1, mdqConnected := true, mdcConnected := true,
        connections := 1, channels := 1, clients := 2, closedConnections := [0], closedChannels := [0], pinged := [1] } := by
    decide
  obtain ⟨channel, held, _, isOpen⟩ := (always redisDownFirst _ ended).channel
  cases held
  exact isOpen (by decide)

/-! The loop settles: an attempt that does not raise sets both flags. -/

theorem connect_done {self : DataProcessor} {outcomes : Outcomes} (done : (self.connect false outcomes).1 = true) :
    (self.connect false outcomes).2.mdqConnected = true ∧ (self.connect false outcomes).2.mdcConnected = true := by
  have redisDone : ∀ other : DataProcessor, other.mdqConnected = true →
      (if !other.mdcConnected then other.connectRedis outcomes else (true, other)).1 = true →
        (if !other.mdcConnected then other.connectRedis outcomes else (true, other)).2.mdqConnected = true ∧
          (if !other.mdcConnected then other.connectRedis outcomes else (true, other)).2.mdcConnected = true := by
    intro other mdq succeeded
    cases mdc : other.mdcConnected with
    | true => exact ⟨mdq, mdc⟩
    | false =>
        simp only [mdc, Bool.not_false, if_true, connectRedis_fst] at succeeded ⊢
        rw [connectRedis_success succeeded]
        exact ⟨mdq, rfl⟩
  unfold connect at done ⊢
  simp only [Bool.or_false] at done ⊢
  cases mdq : self.mdqConnected with
  | true =>
      simp only [mdq, Bool.not_true, Bool.false_eq_true, if_false, if_true] at done ⊢
      exact redisDone self mdq done
  | false =>
      cases rabbitMq : outcomes.rabbitMq with
      | true =>
          obtain ⟨other, same, flag⟩ : ∃ other, self.connectRabbitMq outcomes = (true, other) ∧
              other.mdqConnected = true := ⟨_, connectRabbitMq_success rabbitMq, rfl⟩
          simp only [mdq, Bool.not_false, if_true, same] at done ⊢
          exact redisDone other flag done
      | false =>
          have raised := (connectRabbitMq_fst self outcomes).trans rabbitMq
          simp [mdq, raised] at done

theorem startLoop_settles {self : DataProcessor} {retryCount : Nat} {attempts : List Outcomes}
    (enough : 6 ≤ retryCount + attempts.length) (started : retryCount ≤ 5) :
    ∀ after, self.startLoop retryCount attempts ≠ .waiting after := by
  induction attempts generalizing self retryCount with
  | nil =>
      rw [List.length_nil] at enough
      omega
  | cons outcomes rest ih =>
      rw [List.length_cons] at enough
      intro after
      simp only [startLoop]
      split
      · exact fun ended => (nomatch ended)
      · split
        case h_1 next connected =>
          obtain ⟨mdq, mdc⟩ := connect_done (congrArg Prod.fst connected)
          rw [connected] at mdq mdc
          rw [startLoop_connected mdq mdc]
          exact fun ended => (nomatch ended)
        case h_2 next failed =>
          split
          · exact ih (by omega) (by omega) after
          · exact fun raised => (nomatch raised)

end DataProcessor

end KuhlHausMdp
