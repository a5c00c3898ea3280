import Remoulade.Broker.Log
/-!
# `enqueue` and its retry loop (rabbitmq.py:152-161, :193-271)

`_declareRabbitmqQueues` declares, for every queue in `self.queues`, the queue, its delay
queue and its dead-letter queue, and stops at the first failed declaration. `enqueue`
resolves the actor, rewrites a delayed message onto the delay queue, then runs the
`while True` loop: declare the topology unless `queues_declared`, emit `before_enqueue`,
publish, emit `after_enqueue`. An `AMQPConnectionError` or `AMQPChannelError` discards the
connection or the thread's channel and retries, until `attempts` passes
`MAX_ENQUEUE_ATTEMPTS`.

Main theorem `enqueue_retry`: with a declared actor and middleware whose `before_enqueue`
returns, under every sequence of AMQP outcomes, the call makes at most six attempts,
returns the rewritten message iff a publish completed (exactly one, with one
`after_enqueue`), raises `ConnectionClosed` after exactly six failed attempts otherwise,
pairs every `before_enqueue` with the publish right after it, and discards every failed
channel or connection at once, so no later method runs on it. Without a declared actor
`enqueue` raises `ActorNotFound` before any AMQP call (`enqueue_actorNotFound`).
-/
namespace Remoulade

namespace Broker

/-! ## Topology declaration -/

/-- `_declare_queue` (rabbitmq.py:193-195). -/
def _declareQueue (e : Env) (queueName : String) (b : Broker) : Broker × Option AMQPError :=
  b.onChannel e (.queueDeclare queueName true (_buildQueueArguments b.cfg queueName))

/-- `_declare_dq_queue` (rabbitmq.py:197-199). -/
def _declareDqQueue (e : Env) (queueName : String) (b : Broker) : Broker × Option AMQPError :=
  b.onChannel e (.queueDeclare (dqName queueName) true (_buildQueueArguments b.cfg queueName))

/-- `_declare_xq_queue` (rabbitmq.py:201-206). -/
def _declareXqQueue (e : Env) (queueName : String) (b : Broker) : Broker × Option AMQPError :=
  b.onChannel e (.queueDeclare (xqName queueName) true xqArguments)

/-- One pass of the loop body of `_declare_rabbitmq_queues` (rabbitmq.py:159-161). -/
def declareTopology (e : Env) (queueName : String) : Act :=
  Act.andThen (_declareQueue e queueName) (Act.andThen (_declareDqQueue e queueName) (_declareXqQueue e queueName))

/-- `for queue_name in ...: declare its topology`, stopping at the first exception. -/
def declareEach (e : Env) : List String → Act
  | [] => fun b => (b, none)
  | q :: qs => Act.andThen (declareTopology e q) (declareEach e qs)

/-- `_declare_rabbitmq_queues` (rabbitmq.py:152-161). -/
def _declareRabbitmqQueues (e : Env) (b : Broker) : Broker × Option AMQPError :=
  declareEach e b.queues b

/-! ## `enqueue` -/

inductive Raised where
  | amqp (err : AMQPError)
  /-- A `before_*` hook of the middleware raised. -/
  | hook
deriving DecidableEq, Repr

inductive EnqueueError where
  | actorNotFound
  | connectionClosed (err : AMQPError)
  | middleware
deriving DecidableEq, Repr

/-- `if not self.queues_declared: ...` (rabbitmq.py:242-244). -/
def ensureDeclared (e : Env) (b : Broker) : Broker × Option AMQPError :=
  if b.queuesDeclared then (b, none)
  else match b._declareRabbitmqQueues e with
    | (b, none) => ({ b with queuesDeclared := true }, none)
    | r => r

/-- `emit_before("enqueue")`, `basic.publish`, `emit_after("enqueue")` (rabbitmq.py:245-253). -/
def publishOnce (e : Env) (message : Message) (delay : Option Int) (queueName : String)
    (properties : Options) (b : Broker) : Broker × Option Raised :=
  match b.emitBefore e (.enqueue message delay) with
  | (b, true) => (b, some .hook)
  | (b, false) =>
    match b.onChannel e (.basicPublish "" queueName message properties) with
    | (b, some err) => (b, some (.amqp err))
    | (b, none) => (b.emitAfter (.enqueue message delay), none)

/-- The `try` body of the `while True` loop (rabbitmq.py:238-254). -/
def enqueueAttempt (e : Env) (message : Message) (delay : Option Int) (queueName : String)
    (properties : Options) (b : Broker) : Broker × Option Raised :=
  match ensureDeclared e b with
  | (b, some err) => (b, some (.amqp err))
  | (b, none) => publishOnce e message delay queueName properties b

/-- The `except` clause (rabbitmq.py:259-262): drop the connection after a connection-level
error, the thread's channel after a channel-level one. -/
def discard (b : Broker) : AMQPError → Broker
  | .connection => b.delConnection
  | .channel => b.delChannel

/-- The `while True` loop with the Python counter `attempts` (rabbitmq.py:236-271). -/
def enqueueLoop (e : Env) (message : Message) (delay : Option Int) (queueName : String)
    (properties : Options) (attempts : Nat) (b : Broker) : Broker × Except EnqueueError Message :=
  match enqueueAttempt e message delay queueName properties b with
  | (b, none) => (b, .ok message)
  | (b, some .hook) => (b, .error .middleware)
  | (b, some (.amqp err)) =>
    if MAX_ENQUEUE_ATTEMPTS < attempts + 1 then (b.discard err, .error (.connectionClosed err))
    else enqueueLoop e message delay queueName properties (attempts + 1) (b.discard err)
termination_by MAX_ENQUEUE_ATTEMPTS - attempts

/-- `message.options.get("priority", actor.options.get("priority"))` (rabbitmq.py:224). -/
def priorityOf (message : Message) (actor : Actor) : Value :=
  match message.options.get "priority" with
  | some v => v
  | none => (actor.options.get "priority").getD .null

/-- The routing key and the message `enqueue` publishes: with a delay, the delay queue and a
copy stamped `eta = current_millis() + delay` (rabbitmq.py:220-234). -/
def target (message : Message) (delay : Option Int) (now : Int) : String × Message :=
  match delay with
  | none => (message.queueName, message)
  | some d =>
    let queueName := dqName message.queueName
    (queueName, message.copy queueName [("eta", .int (now + d))])

/-- `enqueue` (rabbitmq.py:208-271); `now` is `current_millis()`. -/
def enqueue (e : Env) (message : Message) (delay : Option Int) (now : Int) (b : Broker) :
    Broker × Except EnqueueError Message :=
  match getActor b.actors message.actorName with
  | none => (b, .error .actorNotFound)
  | some actor =>
    let properties : Options := [("delivery_mode", .int 2), ("priority", priorityOf message actor)]
    let t := target message delay now
    enqueueLoop e t.2 delay t.1 properties 1 b

/-! ## Declarations log only declarations -/

/-- What a run of declarations logs: completed `queue.declare`s, then, if it raised, the
failed method, on the channel and connection the broker still holds. -/
def DeclLog (D : List Event) (b : Broker) : Option AMQPError → Prop
  | none => ∀ ev ∈ D, ev.isDeclared
  | some err => ∃ D' q d a c, D = D' ++ [Event.call (.queueDeclare q d a) c (some err)] ∧
      (∀ ev ∈ D', ev.isDeclared) ∧ b.wire.channel = some c ∧ b.wire.connection = some c.conn

/-- An action that runs declarations only: it keeps `Wf` and the topology sets, and logs a
`DeclLog`. -/
def DeclOnly (f : Act) : Prop :=
  ∀ b : Broker, b.wire.Wf → (f b).1.wire.Wf ∧ (f b).1.queues = b.queues ∧
    (f b).1.queuesDeclared = b.queuesDeclared ∧ ∃ D, Extends b (f b).1 D ∧ DeclLog D (f b).1 (f b).2

theorem declOnly_declare (e : Env) (q : String) (d : Bool) (a : Broker → Options) :
    DeclOnly fun b => b.onChannel e (.queueDeclare q d (a b)) := by
  intro b hw
  obtain ⟨-, hc, hk, -⟩ := Wire.getChannel_spec b.cfg.confirmDelivery hw
  refine ⟨onChannel_wf hw, rfl, rfl, _, Extends.onChannel hw e _, ?_⟩
  simp only [onChannel_snd]
  cases h : e.amqp b.calls with
  | none => simp [DeclLog, h, Event.isDeclared]
  | some err => exact ⟨[], q, d, a b, b.getChannel.2, by simp [h], by simp, by simpa using hc, by simpa using hk⟩

theorem declOnly_pure : DeclOnly fun b => (b, none) :=
  fun b hw => ⟨hw, rfl, rfl, [], Extends.refl b, by simp [DeclLog]⟩

theorem DeclOnly.andThen {f g : Act} (hf : DeclOnly f) (hg : DeclOnly g) : DeclOnly (f.andThen g) := by
  intro b hw
  obtain ⟨hw₁, hq₁, hd₁, D₁, hx₁, hl₁⟩ := hf b hw
  unfold Act.andThen
  rcases h₁ : f b with ⟨b₁, _ | err⟩
  · rw [h₁] at hw₁ hq₁ hd₁ hx₁ hl₁
    obtain ⟨hw₂, hq₂, hd₂, D₂, hx₂, hl₂⟩ := hg b₁ hw₁
    refine ⟨hw₂, hq₂.trans hq₁, hd₂.trans hd₁, D₁ ++ D₂, hx₁.trans hx₂, ?_⟩
    revert hl₂
    rcases (g b₁).2 with _ | err
    · exact fun h₂ ev hev => (List.mem_append.1 hev).elim (hl₁ ev) (h₂ ev)
    · rintro ⟨D', q, d, a, c, rfl, hD', hc⟩
      exact ⟨D₁ ++ D', q, d, a, c, by simp, fun ev hev => (List.mem_append.1 hev).elim (hl₁ ev) (hD' ev), hc⟩
  · rw [h₁] at hw₁ hq₁ hd₁ hx₁ hl₁
    exact ⟨hw₁, hq₁, hd₁, D₁, hx₁, hl₁⟩

theorem declOnly_declareTopology (e : Env) (q : String) : DeclOnly (declareTopology e q) :=
  (declOnly_declare e q true fun b => _buildQueueArguments b.cfg q).andThen
    ((declOnly_declare e (dqName q) true fun b => _buildQueueArguments b.cfg q).andThen
      (declOnly_declare e (xqName q) true fun _ => xqArguments))

theorem declOnly_declareEach (e : Env) : ∀ qs, DeclOnly (declareEach e qs)
  | [] => declOnly_pure
  | q :: qs => (declOnly_declareTopology e q).andThen (declOnly_declareEach e qs)

variable {e : Env} {b : Broker} {m : Message} {d : Option Int} {q : String} {props : Options}

theorem ensureDeclared_spec (e : Env) (hw : b.wire.Wf) :
    (ensureDeclared e b).1.wire.Wf ∧ (ensureDeclared e b).1.queues = b.queues ∧
      ((ensureDeclared e b).2 = none → (ensureDeclared e b).1.queuesDeclared = true) ∧
      ∃ D, Extends b (ensureDeclared e b).1 D ∧ DeclLog D (ensureDeclared e b).1 (ensureDeclared e b).2 := by
  unfold ensureDeclared
  split
  · exact ⟨hw, rfl, fun _ => ‹_›, [], Extends.refl b, by simp [DeclLog]⟩
  · obtain ⟨hw', hq, -, D, hx, hl⟩ := declOnly_declareEach e b.queues b hw
    unfold _declareRabbitmqQueues
    rcases h : declareEach e b.queues b with ⟨b₁, _ | err⟩ <;> rw [h] at hw' hq hx hl
    · exact ⟨hw', hq, fun _ => rfl, D, hx.congr rfl rfl rfl, hl⟩
    · exact ⟨hw', hq, nofun, D, hx, hl⟩

/-- What one attempt logs, by how it ends: no failure, one completed publish and one
`after_enqueue`; or a log without failure, publish or `after_enqueue` followed by the failed
method, on the channel and connection the broker still holds, and either way `Paired`; or, when
`before_enqueue` raised, a log without failure. -/
def AttemptLog (E : List Event) (b : Broker) : Option Raised → Prop
  | none => E.countP Event.isFailure = 0 ∧ E.countP Event.isPublished = 1 ∧
      E.countP Event.isAfterEnqueue = 1 ∧ Paired E
  | some (.amqp err) => ∃ E' mth c, E = E' ++ [Event.call mth c (some err)] ∧
      E'.countP Event.isFailure = 0 ∧ E'.countP Event.isPublished = 0 ∧
      E'.countP Event.isAfterEnqueue = 0 ∧ Paired E ∧ b.wire.channel = some c ∧ b.wire.connection = some c.conn
  | some .hook => E.countP Event.isFailure = 0

theorem AttemptLog.declared_append {D E : List Event} {r : Option Raised} (hD : ∀ ev ∈ D, ev.isDeclared)
    (h : AttemptLog E b r) : AttemptLog (D ++ E) b r := by
  have hq := fun ev hev => Event.isDeclared_quiet (hD ev hev)
  have hP : Paired D := Paired.of_quiet fun ev hev => ⟨(hq ev hev).2.2.2.1, (hq ev hev).2.2.1⟩
  have c₁ : D.countP Event.isFailure = 0 := List.countP_eq_zero.2 fun ev hev => by simp [(hq ev hev).1]
  have c₂ : D.countP Event.isPublished = 0 := List.countP_eq_zero.2 fun ev hev => by simp [(hq ev hev).2.1]
  have c₃ : D.countP Event.isAfterEnqueue = 0 := List.countP_eq_zero.2 fun ev hev => by simp [(hq ev hev).2.2.2.2]
  match r, h with
  | none, ⟨h₁, h₂, h₃, h₄⟩ =>
    exact ⟨by simp [c₁, h₁], by simp [c₂, h₂], by simp [c₃, h₃], Paired.append hP h₄⟩
  | some (.amqp err), ⟨E', mth, c, hE, h₁, h₂, h₃, h₄, hc⟩ =>
    exact ⟨D ++ E', mth, c, by simp [hE], by simp [c₁, h₁], by simp [c₂, h₂], by simp [c₃, h₃],
      Paired.append hP h₄, hc⟩
  | some .hook, h => simp only [AttemptLog, List.countP_append, c₁, Nat.zero_add]; exact h

theorem publishOnce_spec (m : Message) (d : Option Int) (q : String) (props : Options) (hw : b.wire.Wf) :
    (publishOnce e m d q props b).1.wire.Wf ∧ (publishOnce e m d q props b).1.queues = b.queues ∧
      ∃ E, Extends b (publishOnce e m d q props b).1 E ∧
        AttemptLog E (publishOnce e m d q props b).1 (publishOnce e m d q props b).2 := by
  let b₁ := (b.emitBefore e (.enqueue m d)).1
  let pub := Method.basicPublish "" q m props
  have hx₁ : Extends b b₁ [Event.before (.enqueue m d)] := Extends.emitBefore e _
  cases hh : e.hook b.emits
  case true =>
    have hp : publishOnce e m d q props b = (b₁, some .hook) := by simp [publishOnce, emitBefore, hh, b₁]
    rw [hp]
    exact ⟨hw, rfl, _, hx₁, by simp [AttemptLog, Event.isFailure]⟩
  have hx₂ : Extends b₁ (b₁.onChannel e pub).1 [Event.call pub b₁.getChannel.2 (e.amqp b₁.calls)] :=
    Extends.onChannel (show b₁.wire.Wf from hw) e pub
  have hw₂ : (b₁.onChannel e pub).1.wire.Wf := onChannel_wf hw
  obtain ⟨-, hc, hk, -⟩ := Wire.getChannel_spec b₁.cfg.confirmDelivery hw
  have hch : (b₁.onChannel e pub).1.wire.channel = some b₁.getChannel.2 := by simpa using hc
  have hco : (b₁.onChannel e pub).1.wire.connection = some b₁.getChannel.2.conn := by simpa using hk
  have hp : publishOnce e m d q props b = match b₁.onChannel e pub with
      | (b, some err) => (b, some (.amqp err))
      | (b, none) => (b.emitAfter (.enqueue m d), none) := by
    simp [publishOnce, emitBefore, hh, b₁, pub]
  have hr : (b₁.onChannel e pub).2 = e.amqp b₁.calls := rfl
  have hq : (b₁.onChannel e pub).1.queues = b.queues := rfl
  rw [hp]
  rcases h : b₁.onChannel e pub with ⟨b₂, _ | err⟩ <;> rw [h] at hx₂ hw₂ hch hco hr hq <;>
    dsimp only at hr hx₂ hw₂ hch hco hq ⊢ <;> rw [← hr] at hx₂
  · refine ⟨hw₂, hq, _, (hx₁.trans hx₂).trans (Extends.emitAfter _), ?_⟩
    simp [AttemptLog, Paired, Event.isFailure, Event.isPublished, Event.isAfterEnqueue,
      Event.isBeforeEnqueue, Event.isPublish]
  · refine ⟨hw₂, hq, _, hx₁.trans hx₂, [Event.before (.enqueue m d)], pub, _, rfl, ?_⟩
    simp [Paired, Event.isFailure, Event.isPublished, Event.isAfterEnqueue, Event.isBeforeEnqueue,
      Event.isPublish, pub, hch, hco]

/-- **One attempt** (rabbitmq.py:238-254): its log is an `AttemptLog`. -/
theorem enqueueAttempt_spec (m : Message) (d : Option Int) (q : String) (props : Options) (hw : b.wire.Wf) :
    (enqueueAttempt e m d q props b).1.wire.Wf ∧ (enqueueAttempt e m d q props b).1.queues = b.queues ∧
      ∃ E, Extends b (enqueueAttempt e m d q props b).1 E ∧
        AttemptLog E (enqueueAttempt e m d q props b).1 (enqueueAttempt e m d q props b).2 := by
  obtain ⟨hw₁, hq₁, -, D, hx₁, hl₁⟩ := ensureDeclared_spec e hw
  unfold enqueueAttempt
  rcases h : ensureDeclared e b with ⟨b₁, _ | err⟩ <;> rw [h] at hw₁ hq₁ hx₁ hl₁
  · obtain ⟨hw₂, hq₂, E, hx₂, hl₂⟩ := publishOnce_spec m d q props hw₁
    exact ⟨hw₂, hq₂.trans hq₁, D ++ E, hx₁.trans hx₂, hl₂.declared_append hl₁⟩
  · obtain ⟨D', q', dur, args, c, rfl, hD', hc⟩ := hl₁
    have hq := fun ev hev => Event.isDeclared_quiet (hD' ev hev)
    refine ⟨hw₁, hq₁, _, hx₁, D', _, c, rfl, List.countP_eq_zero.2 fun ev hev => by simp [(hq ev hev).1],
      List.countP_eq_zero.2 fun ev hev => by simp [(hq ev hev).2.1],
      List.countP_eq_zero.2 fun ev hev => by simp [(hq ev hev).2.2.2.2],
      Paired.of_quiet fun ev hev => ?_, hc⟩
    rcases List.mem_append.1 hev with hev | hev
    · exact ⟨(hq ev hev).2.2.2.1, (hq ev hev).2.2.1⟩
    · simp only [List.mem_singleton] at hev
      simp [hev, Event.isBeforeEnqueue, Event.isPublish]

/-- **A failed attempt and its `except` clause** (rabbitmq.py:256-262): the failed channel or
connection is closed by the deleter right after the failure and dropped from the broker. -/
theorem failedRound {b₀ : Broker} {E : List Event} {err : AMQPError} (hw : b.wire.Wf)
    (hx : Extends b₀ b E) (h : AttemptLog E b (some (.amqp err))) :
    (b.discard err).wire.Wf ∧ (b.discard err).queues = b.queues ∧
      (err = .channel → (b.discard err).wire.channel = none) ∧
      (err = .connection → (b.discard err).wire.connection = none) ∧
      ∃ F, Extends b₀ (b.discard err) F ∧ F.countP Event.isFailure = 1 ∧ F.countP Event.isPublished = 0 ∧
        F.countP Event.isAfterEnqueue = 0 ∧ Paired F ∧ Discarded F ∧ ∀ a ∈ F.getLast?, a.discardEvent = none := by
  obtain ⟨E', mth, c, rfl, h₁, h₂, h₃, h₄, hc, hk⟩ := h
  have hE' : ∀ a ∈ E'.getLast?, a.discardEvent = none := fun a ha =>
    Event.discardEvent_eq_none (by simpa using List.countP_eq_zero.1 h₁ a (List.mem_of_mem_getLast? ha))
  cases err with
  | connection =>
    have hd : Extends b b.delConnection [Event.closeConnection c.conn] := by
      simpa [hk] using (Extends.delConnection : Extends b b.delConnection _)
    refine ⟨hw.delConnection, rfl, nofun, fun _ => ?_, _, hx.trans hd, ?_⟩
    · simp [discard, delConnection, Wire.delConnection, hk]
    · refine ⟨by simp [h₁, Event.isFailure], by simp [h₂, Event.isPublished], by simp [h₃, Event.isAfterEnqueue],
        Paired.append h₄ (by simp [Paired, Event.isBeforeEnqueue, Event.isPublish]), ?_, by simp [Event.discardEvent]⟩
      rw [List.append_assoc]
      exact Discarded.append (Discarded.of_noFailure h₁) (by simp [Discarded, Event.discardEvent]) hE'
  | channel =>
    have hd : Extends b b.delChannel [Event.closeChannel c] := by
      simpa [hc] using (Extends.delChannel : Extends b b.delChannel _)
    refine ⟨hw.delChannel, rfl, fun _ => ?_, nofun, _, hx.trans hd, ?_⟩
    · simp [discard, delChannel, Wire.delChannel, hc]
    · refine ⟨by simp [h₁, Event.isFailure], by simp [h₂, Event.isPublished], by simp [h₃, Event.isAfterEnqueue],
        Paired.append h₄ (by simp [Paired, Event.isBeforeEnqueue, Event.isPublish]), ?_, by simp [Event.discardEvent]⟩
      rw [List.append_assoc]
      exact Discarded.append (Discarded.of_noFailure h₁) (by simp [Discarded, Event.discardEvent]) hE'

theorem enqueueAttempt_ne_hook (hh : ∀ n, e.hook n = false) : (enqueueAttempt e m d q props b).2 ≠ some .hook := by
  unfold enqueueAttempt
  rcases ensureDeclared e b with ⟨b₁, _ | err⟩ <;> simp only [publishOnce, emitBefore, hh]
  · split <;> simp
  · simp

/-- **The retry loop** from the counter value `attempts` (rabbitmq.py:236-271). -/
theorem enqueueLoop_spec (m : Message) (d : Option Int) (q : String) (props : Options)
    (hh : ∀ n, e.hook n = false) (attempts : Nat) (b : Broker) (hw : b.wire.Wf)
    (ha : attempts ≤ MAX_ENQUEUE_ATTEMPTS) :
    let p := enqueueLoop e m d q props attempts b
    p.1.queues = b.queues ∧ ∃ L, Extends b p.1 L ∧ Paired L ∧ Discarded L ∧
      L.countP Event.isAfterEnqueue = L.countP Event.isPublished ∧
      ((p.2 = .ok m ∧ L.countP Event.isPublished = 1 ∧
          L.countP Event.isFailure ≤ MAX_ENQUEUE_ATTEMPTS - attempts) ∨
       (∃ err, p.2 = .error (.connectionClosed err) ∧ L.countP Event.isPublished = 0 ∧
          L.countP Event.isFailure = MAX_ENQUEUE_ATTEMPTS + 1 - attempts ∧
          (err = .channel → p.1.wire.channel = none) ∧ (err = .connection → p.1.wire.connection = none))) := by
  induction attempts, b using enqueueLoop.induct e m d q props with
  | case1 attempts b b₁ h =>
    obtain ⟨-, hq₁, E, hx, hl⟩ := enqueueAttempt_spec m d q props hw
    rw [h] at hq₁ hx hl
    obtain ⟨h₁, h₂, h₃, h₄⟩ := hl
    have hp : enqueueLoop e m d q props attempts b = (b₁, .ok m) := by rw [enqueueLoop, h]
    simp only [hp]
    exact ⟨hq₁, E, hx, h₄, Discarded.of_noFailure h₁, by rw [h₂, h₃], .inl ⟨trivial, h₂, by omega⟩⟩
  | case2 attempts b b₁ h => exact absurd (congrArg Prod.snd h) (enqueueAttempt_ne_hook hh)
  | case3 attempts b b₁ err h hlt =>
    obtain ⟨hw₁, hq₁, E, hx, hl⟩ := enqueueAttempt_spec m d q props hw
    rw [h] at hw₁ hq₁ hx hl
    obtain ⟨-, hq₂, hch, hco, F, hF, f₁, f₂, f₃, f₄, f₅, -⟩ := failedRound hw₁ hx hl
    have hp : enqueueLoop e m d q props attempts b = (b₁.discard err, .error (.connectionClosed err)) := by
      rw [enqueueLoop, h]; simp [hlt]
    simp only [hp]
    exact ⟨hq₂.trans hq₁, F, hF, f₄, f₅, by rw [f₂, f₃], .inr ⟨err, rfl, f₂, by omega, hch, hco⟩⟩
  | case4 attempts b b₁ err h hlt ih =>
    obtain ⟨hw₁, hq₁, E, hx, hl⟩ := enqueueAttempt_spec m d q props hw
    rw [h] at hw₁ hq₁ hx hl
    obtain ⟨hw₂, hq₂, -, -, F, hF, f₁, f₂, f₃, f₄, f₅, f₆⟩ := failedRound hw₁ hx hl
    obtain ⟨hq', L', hL', l₁, l₂, l₃, l₄⟩ := ih hw₂ (by omega)
    have hp : enqueueLoop e m d q props attempts b = enqueueLoop e m d q props (attempts + 1) (b₁.discard err) := by
      rw [enqueueLoop, h]; simp [hlt]
    simp only [hp]
    refine ⟨hq'.trans (hq₂.trans hq₁), F ++ L', hF.trans hL', Paired.append f₄ l₁, Discarded.append f₅ l₂ f₆,
      by simp [List.countP_append, f₂, f₃, l₃], ?_⟩
    rcases l₄ with ⟨hok, hpub, hfail⟩ | ⟨err', herr, hpub, hfail, hc, hk⟩
    · exact .inl ⟨hok, by simp [List.countP_append, f₂, hpub], by simp [List.countP_append, f₁]; omega⟩
    · exact .inr ⟨err', herr, by simp [List.countP_append, f₂, hpub], by simp [List.countP_append, f₁, hfail]; omega, hc, hk⟩

/-- **Every failure of the retry loop is discarded at once**, whatever the hooks do: each failed
method is followed in the log by the `close()` of its channel or connection. -/
theorem enqueueLoop_discarded (m : Message) (d : Option Int) (q : String) (props : Options) (attempts : Nat)
    (b : Broker) (hw : b.wire.Wf) : ∃ L, Extends b (enqueueLoop e m d q props attempts b).1 L ∧ Discarded L := by
  induction attempts, b using enqueueLoop.induct e m d q props with
  | case1 attempts b b₁ h =>
    obtain ⟨-, -, E, hx, hl⟩ := enqueueAttempt_spec m d q props hw
    rw [h] at hx hl
    rw [enqueueLoop, h]
    exact ⟨E, hx, Discarded.of_noFailure hl.1⟩
  | case2 attempts b b₁ h =>
    obtain ⟨-, -, E, hx, hl⟩ := enqueueAttempt_spec m d q props hw
    rw [h] at hx hl
    rw [enqueueLoop, h]
    exact ⟨E, hx, Discarded.of_noFailure hl⟩
  | case3 attempts b b₁ err h hlt =>
    obtain ⟨hw₁, -, E, hx, hl⟩ := enqueueAttempt_spec m d q props hw
    rw [h] at hw₁ hx hl
    obtain ⟨-, -, -, -, F, hF, -, -, -, -, hd, -⟩ := failedRound hw₁ hx hl
    rw [enqueueLoop, h]
    simp only [hlt, if_true]
    exact ⟨F, hF, hd⟩
  | case4 attempts b b₁ err h hlt ih =>
    obtain ⟨hw₁, -, E, hx, hl⟩ := enqueueAttempt_spec m d q props hw
    rw [h] at hw₁ hx hl
    obtain ⟨hw₂, -, -, -, F, hF, -, -, -, -, hd, hlast⟩ := failedRound hw₁ hx hl
    obtain ⟨L, hL, hd'⟩ := ih hw₂
    rw [enqueueLoop, h]
    simp only [hlt, if_false]
    exact ⟨F ++ L, hF.trans hL, Discarded.append hd hd' hlast⟩

theorem enqueue_discarded (e : Env) (m : Message) (delay : Option Int) (now : Int) (hw : b.wire.Wf) :
    ∃ L, (b.enqueue e m delay now).1.log = b.log ++ L ∧ Discarded L := by
  unfold enqueue
  cases getActor b.actors m.actorName with
  | none => exact ⟨[], by simp, rfl⟩
  | some a =>
    obtain ⟨L, hx, hd⟩ := enqueueLoop_discarded (e := e) (target m delay now).2 delay (target m delay now).1
      [("delivery_mode", .int 2), ("priority", priorityOf m a)] 1 b hw
    exact ⟨L, hx.log, hd⟩

theorem enqueueLoop_of_ok (attempts : Nat) (h : (enqueueAttempt e m d q props b).2 = none) :
    enqueueLoop e m d q props attempts b = ((enqueueAttempt e m d q props b).1, .ok m) := by
  rw [enqueueLoop]
  rcases hr : enqueueAttempt e m d q props b with ⟨b', _ | r⟩ <;> simp_all

/-! ## `enqueue` -/

theorem enqueue_of_ok (now : Int) {a : Actor} (ha : getActor b.actors m.actorName = some a)
    (h : (enqueueAttempt e (target m d now).2 d (target m d now).1
      [("delivery_mode", .int 2), ("priority", priorityOf m a)] b).2 = none) :
    b.enqueue e m d now = ((enqueueAttempt e (target m d now).2 d (target m d now).1
      [("delivery_mode", .int 2), ("priority", priorityOf m a)] b).1, .ok (target m d now).2) := by
  simp only [enqueue, ha]
  exact enqueueLoop_of_ok 1 h

theorem enqueue_actorNotFound (e : Env) (m : Message) (delay : Option Int) (now : Int)
    (h : getActor b.actors m.actorName = none) : b.enqueue e m delay now = (b, .error .actorNotFound) := by
  simp [enqueue, h]

/-- **`enqueue` under every sequence of AMQP outcomes** (rabbitmq.py:208-271). For a message
whose actor is declared, with middleware whose `before_enqueue` returns, the events `L` of the
call: at most `MAX_ENQUEUE_ATTEMPTS` attempts (each ends with one failed method or with the
completed publish); the rewritten message is returned after exactly one completed publish
and one `after_enqueue`, or `ConnectionClosed` is raised after exactly six failures, with no
publish and no `after_enqueue`, and the failed resource dropped; each `before_enqueue` comes
right before its publish; each failed method is followed at once by the `close()` that
discards it, and no later method runs on it. -/
theorem enqueue_retry (e : Env) (b : Broker) (m : Message) (delay : Option Int) (now : Int)
    (hw : b.wire.Wf) (ha : (getActor b.actors m.actorName).isSome) (hh : ∀ n, e.hook n = false) :
    let p := b.enqueue e m delay now
    ∃ L, p.1.log = b.log ++ L ∧
      L.countP Event.isFailure + L.countP Event.isPublished ≤ MAX_ENQUEUE_ATTEMPTS ∧
      ((p.2 = .ok (target m delay now).2 ∧ L.countP Event.isPublished = 1 ∧
          L.countP Event.isAfterEnqueue = 1) ∨
       (∃ err, p.2 = .error (.connectionClosed err) ∧ L.countP Event.isFailure = MAX_ENQUEUE_ATTEMPTS ∧
          L.countP Event.isPublished = 0 ∧ L.countP Event.isAfterEnqueue = 0 ∧
          (err = .channel → p.1.wire.channel = none) ∧ (err = .connection → p.1.wire.connection = none))) ∧
      Paired L ∧ L.countP Event.isBeforeEnqueue = L.countP Event.isPublish ∧
      Discarded L ∧ L.Pairwise Event.NotReusing := by
  obtain ⟨a, hac⟩ := Option.isSome_iff_exists.1 ha
  obtain ⟨-, L, hx, l₁, l₂, l₃, l₄⟩ := enqueueLoop_spec (target m delay now).2 delay (target m delay now).1
    [("delivery_mode", .int 2), ("priority", priorityOf m a)] hh 1 b hw (by decide)
  simp only [enqueue, hac]
  refine ⟨L, hx.log, ?_, ?_, l₁, Paired.count_eq l₁, l₂, hx.noReuse⟩
  · rcases l₄ with ⟨-, h₁, h₂⟩ | ⟨_, -, h₁, h₂, -⟩ <;> simp only [MAX_ENQUEUE_ATTEMPTS] at * <;> omega
  · rcases l₄ with ⟨h₀, h₁, -⟩ | ⟨err, h₀, h₁, h₂, hc, hk⟩
    · exact .inl ⟨h₀, h₁, l₃.trans h₁⟩
    · exact .inr ⟨err, h₀, h₂, h₁, l₃.trans h₁, hc, hk⟩

/-- A server and a network under which every AMQP method completes, with middleware whose hooks
all return. -/
def Env.ok : Env := ⟨fun _ => none, fun _ => false⟩

def addActor : Actor := ⟨"add", "default", []⟩

def addMessage : Message := ⟨"default", "add", "m1", []⟩

/-- A world in which the first two AMQP methods fail at the channel level and every later one
completes, with middleware whose hooks all return. -/
def Env.twoChannelFailures : Env := ⟨fun n => if n < 2 then some .channel else none, fun _ => false⟩

theorem enqueue_retry_init :
    (Broker.init Config.defaults [addActor]).wire.Wf ∧
      (getActor (Broker.init Config.defaults [addActor]).actors addMessage.actorName).isSome ∧
      (∀ n, Env.twoChannelFailures.hook n = false) ∧
      ∃ L, ((Broker.init Config.defaults [addActor]).enqueue Env.twoChannelFailures addMessage none 0).1.log = [] ++ L ∧
        L.countP Event.isFailure + L.countP Event.isPublished ≤ MAX_ENQUEUE_ATTEMPTS ∧ Discarded L :=
  ⟨Broker.init_wf _ _, rfl, fun _ => rfl,
    (enqueue_retry Env.twoChannelFailures (Broker.init Config.defaults [addActor]) addMessage none 0
      (Broker.init_wf _ _) rfl fun _ => rfl).imp fun _ h => ⟨h.1, h.2.1, h.2.2.2.2.2.1⟩⟩

def Env.hookRaises : Env := ⟨fun _ => none, fun _ => true⟩

/-- **Both preconditions are needed.** A message whose actor is not declared: `enqueue` raises
`ActorNotFound` and makes no attempt. A `before_enqueue` that raises: the exception reaches the
caller after one `before_enqueue` and no publish. Either way `enqueue` neither returns the message
nor raises `ConnectionClosed`. -/
theorem enqueue_unknown_actor :
    (Broker.init Config.defaults []).enqueue Env.ok addMessage none 0 =
        (Broker.init Config.defaults [], .error .actorNotFound) ∧
      ((Broker.init Config.defaults [addActor]).enqueue Env.hookRaises addMessage none 0).2 = .error .middleware ∧
      ((Broker.init Config.defaults [addActor]).enqueue Env.hookRaises addMessage none 0).1.log =
        [.before (.enqueue addMessage none)] :=
  ⟨enqueue_actorNotFound Env.ok addMessage none 0 rfl, by
    simp [enqueue, enqueueLoop, enqueueAttempt, ensureDeclared, _declareRabbitmqQueues, declareEach, publishOnce,
      emitBefore, Env.hookRaises, Broker.init, getActor, addActor, addMessage, target]⟩

end Broker

end Remoulade
