import Remoulade.Common
/-!
# `RabbitmqBroker`: one thread's view of the broker (rabbitmq.py:36-129, :183-206)

The wire client (`amqpstorm`) is opaque: a connection is a fresh number, a channel a fresh
number with its connection, and "closed" is membership in `closedConns` / `closedChans` (a
channel is also closed once its connection is). The server and the network enter only through
`Env`: the outcome of the `n`-th AMQP method and whether the `n`-th `emit_before` raises. `Wire`
(`_connection`, the thread's `state.channel`, the id allocator) is changed only by the getters
and deleters, which do not raise here (their exceptions are steps of `ChannelCache.lean`), and
`Wire.Wf` is what they keep (`getChannel_spec`).

| here | there |
| --- | --- |
| `Config.new` | the `max_priority` check of `__init__` (rabbitmq.py:56-64) |
| `Wire.getConnection` / `Wire.getChannel` | the `connection` / `channel` getters (:72-80, :92-104) |
| `Broker.delConnection` / `Broker.delChannel` / `Broker.close` | the deleters and `close` (:82-129) |
| `_buildQueueArguments` | `_build_queue_arguments` (:183-191) |
| `Broker.invoke` | one AMQP method (`queue.declare`, `basic.publish`, ...) on a channel |
-/
namespace Remoulade

/-! ## Configuration -/

/-- The arguments of `__init__` the adapter reads later, with the `max_priority` bound
`__init__` enforces. -/
structure Config where
  confirmDelivery : Bool
  maxPriority : Option Int
  maxPriority_ok : ∀ p, maxPriority = some p → 0 < p ∧ p ≤ 255

/-- The `max_priority` check of `RabbitmqBroker.__init__` (rabbitmq.py:59-60). -/
def Config.new (confirmDelivery : Bool) (maxPriority : Option Int) : Except String Config :=
  match maxPriority with
  | none => .ok ⟨confirmDelivery, none, fun _ h => nomatch h⟩
  | some p =>
    if h : 0 < p ∧ p ≤ 255 then .ok ⟨confirmDelivery, some p, fun _ e => Option.some.inj e ▸ h⟩
    else .error "max_priority must be a value between 0 and 255"

theorem Config.new_ok_iff (cd : Bool) (mp : Option Int) :
    (∃ cfg, Config.new cd mp = .ok cfg) ↔ ∀ p, mp = some p → 0 < p ∧ p ≤ 255 := by
  cases mp with
  | none => simp [Config.new]
  | some p => by_cases h : 0 < p ∧ p ≤ 255 <;> simp [Config.new, h]

/-- `_build_queue_arguments` (rabbitmq.py:183-191): dead letters of `queueName` go to its
dead-letter queue; `x-max-priority` when `max_priority` is set. -/
def _buildQueueArguments (cfg : Config) (queueName : String) : Options :=
  [("x-dead-letter-exchange", .str ""), ("x-dead-letter-routing-key", .str (xqName queueName))] ++
    match cfg.maxPriority with
    | some p => if p != 0 then [("x-max-priority", .int p)] else []
    | none => []

/-- The arguments of `_declare_xq_queue` (rabbitmq.py:202-206). -/
def xqArguments : Options := [("x-message-ttl", .int DEAD_MESSAGE_TTL)]

/-! ## Wire-client objects -/

/-- The AMQP methods the adapter sends. -/
inductive Method where
  | queueDeclare (queue : String) (durable : Bool) (arguments : Options)
  | queuePurge (queue : String)
  | basicPublish (exchange routingKey : String) (body : Message) (properties : Options)
  | basicQos (prefetchCount : Nat)
  | basicConsume (queue : String) (noAck : Bool)
deriving DecidableEq, Repr

/-- What the adapter does that can be observed: hook emissions, AMQP methods with their
outcome, and the `close()` calls of the deleters. -/
inductive Event where
  | before (s : Signal)
  | after (s : Signal)
  | call (m : Method) (c : Chan) (r : Option AMQPError)
  | closeChannel (c : Chan)
  | closeConnection (k : Nat)
deriving DecidableEq, Repr

/-- The outcomes the adapter does not control. -/
structure Env where
  amqp : Nat → Option AMQPError
  hook : Nat → Bool

/-- `_connection`, the calling thread's `state.channel`, what is closed, the id allocator,
and the channels `confirm_deliveries()` was called on. -/
structure Wire where
  connection : Option Nat
  channel : Option Chan
  closedConns : List Nat
  closedChans : List Nat
  confirmed : List Nat
  fresh : Nat

namespace Wire

/-- `channel.is_closed`: the channel or its connection was closed. -/
def isClosed (w : Wire) (c : Chan) : Bool := decide (c.id ∈ w.closedChans) || decide (c.conn ∈ w.closedConns)

/-- `UriConnection(self.url)` stored as `_connection`. -/
def openConnection (w : Wire) : Wire × Nat :=
  ({ w with connection := some w.fresh, fresh := w.fresh + 1 }, w.fresh)

/-- The `connection` getter (rabbitmq.py:72-80). -/
def getConnection (w : Wire) : Wire × Nat :=
  match w.connection with
  | some k => if k ∈ w.closedConns then w.openConnection else (w, k)
  | none => w.openConnection

/-- `self.connection.channel()`, `confirm_deliveries()` when `confirm_delivery`, and
`self.state.channel = channel` (rabbitmq.py:99-103). -/
def openChannel (confirmDelivery : Bool) (w : Wire) : Wire × Chan :=
  let p := w.getConnection
  let c : Chan := ⟨p.1.fresh, p.2⟩
  ({ p.1 with fresh := p.1.fresh + 1, channel := some c,
              confirmed := if confirmDelivery then c.id :: p.1.confirmed else p.1.confirmed }, c)

/-- The `channel` getter (rabbitmq.py:92-104). -/
def getChannel (confirmDelivery : Bool) (w : Wire) : Wire × Chan :=
  match w.channel with
  | some c => if w.isClosed c then w.openChannel confirmDelivery else (w, c)
  | none => w.openChannel confirmDelivery

def closeConn (w : Wire) (k : Nat) : Wire := { w with closedConns := k :: w.closedConns }

def closeChan (w : Wire) (c : Chan) : Wire := { w with closedChans := c.id :: w.closedChans }

/-- What the wire client does to channel `c` when a method ends with `r`. -/
def fail (w : Wire) (c : Chan) : Option AMQPError → Wire
  | none => w
  | some .connection => w.closeConn c.conn
  | some .channel => w.closeChan c

/-- The connection deleter's effect (rabbitmq.py:84-90). -/
def delConnection (w : Wire) : Wire :=
  match w.connection with
  | some k => { w.closeConn k with connection := none }
  | none => w

/-- The channel deleter's effect (rabbitmq.py:108-117). -/
def delChannel (w : Wire) : Wire :=
  match w.channel with
  | some c => { w.closeChan c with channel := none }
  | none => w

/-- Every id in use was allocated, and a cached open channel is on the current connection. -/
structure Wf (w : Wire) : Prop where
  closedChans_lt : ∀ i ∈ w.closedChans, i < w.fresh
  closedConns_lt : ∀ k ∈ w.closedConns, k < w.fresh
  connection_lt : ∀ k, w.connection = some k → k < w.fresh
  channel_lt : ∀ c, w.channel = some c → c.id < w.fresh ∧ c.conn < w.fresh
  channel_conn : ∀ c, w.channel = some c → w.isClosed c = false → w.connection = some c.conn

def Alloc (w : Wire) (c : Chan) : Prop := c.id < w.fresh ∧ c.conn < w.fresh

/-! ### What the getters and deleters keep -/

variable {w : Wire} {c : Chan} {k : Nat} {cd : Bool}

@[simp] theorem isClosed_eq_false : w.isClosed c = false ↔ c.id ∉ w.closedChans ∧ c.conn ∉ w.closedConns := by
  simp [isClosed]

theorem Wf.cached_closed (h : w.Wf) (hk : ∀ k, w.connection = some k → k ∈ w.closedConns) :
    ∀ c, w.channel = some c → w.isClosed c = true := by
  intro c hc
  cases hcl : w.isClosed c with
  | true => rfl
  | false => exact absurd (hk _ (h.channel_conn c hc hcl)) (isClosed_eq_false.1 hcl).2

theorem openConnection_spec (h : w.Wf) (hc : ∀ c, w.channel = some c → w.isClosed c = true) :
    w.openConnection.1.Wf ∧ w.openConnection.1.connection = some w.openConnection.2 ∧
      w.openConnection.2 ∉ w.openConnection.1.closedConns ∧ w.openConnection.2 < w.openConnection.1.fresh := by
  refine ⟨⟨fun i hi => Nat.lt_succ_of_lt (h.closedChans_lt i hi),
    fun i hi => Nat.lt_succ_of_lt (h.closedConns_lt i hi), fun k hk => ?_,
    fun c hc' => (h.channel_lt c hc').imp Nat.lt_succ_of_lt Nat.lt_succ_of_lt,
    fun c hc' hcl => absurd (hc c hc') (by simpa [isClosed, openConnection] using hcl)⟩,
    rfl, fun hk => Nat.lt_irrefl _ (h.closedConns_lt _ hk), Nat.lt_succ_self _⟩
  cases hk
  exact Nat.lt_succ_self _

/-- **The `connection` getter** returns an open connection and stores it as `_connection`;
only the allocator changes besides. -/
theorem getConnection_spec (h : w.Wf) :
    w.getConnection.1.Wf ∧ w.getConnection.1.connection = some w.getConnection.2 ∧
      w.getConnection.2 ∉ w.getConnection.1.closedConns ∧ w.getConnection.2 < w.getConnection.1.fresh ∧
      w.getConnection.1.channel = w.channel ∧ w.getConnection.1.closedConns = w.closedConns ∧
      w.getConnection.1.closedChans = w.closedChans ∧ w.getConnection.1.confirmed = w.confirmed ∧
      w.fresh ≤ w.getConnection.1.fresh := by
  have hopen : ∀ hc : ∀ c, w.channel = some c → w.isClosed c = true,
      w.openConnection.1.Wf ∧ w.openConnection.1.connection = some w.openConnection.2 ∧
      w.openConnection.2 ∉ w.openConnection.1.closedConns ∧ w.openConnection.2 < w.openConnection.1.fresh ∧
      w.openConnection.1.channel = w.channel ∧ w.openConnection.1.closedConns = w.closedConns ∧
      w.openConnection.1.closedChans = w.closedChans ∧ w.openConnection.1.confirmed = w.confirmed ∧
      w.fresh ≤ w.openConnection.1.fresh := fun hc =>
    let ⟨a, b, c, d⟩ := openConnection_spec h hc
    ⟨a, b, c, d, rfl, rfl, rfl, rfl, Nat.le_succ _⟩
  unfold getConnection
  split
  · rename_i k0 hk0
    split
    · exact hopen (h.cached_closed fun _ e => by simp_all)
    · exact ⟨h, hk0, ‹_›, h.connection_lt _ hk0, rfl, rfl, rfl, rfl, le_rfl⟩
  · exact hopen (h.cached_closed fun _ e => by simp_all)

theorem openChannel_spec (cd : Bool) (h : w.Wf) :
    let p := w.openChannel cd
    p.1.Wf ∧ p.1.channel = some p.2 ∧ p.1.connection = some p.2.conn ∧ p.1.isClosed p.2 = false ∧
      p.1.closedConns = w.closedConns ∧ p.1.closedChans = w.closedChans ∧ w.fresh ≤ p.1.fresh := by
  obtain ⟨hw, hk, hkc, hklt, -, hcc, hcs, -, hle⟩ := getConnection_spec h
  refine ⟨⟨fun i hi => Nat.lt_succ_of_lt (hw.closedChans_lt i hi),
    fun i hi => Nat.lt_succ_of_lt (hw.closedConns_lt i hi), fun k e => ?_,
    fun c e => ?_, fun c e _ => ?_⟩, rfl, hk, ?_, hcc, hcs, Nat.le_succ_of_le hle⟩
  · simp only [openChannel, hk, Option.some.injEq] at e ⊢; omega
  · simp only [openChannel, Option.some.injEq] at e ⊢; subst e; exact ⟨Nat.lt_succ_self _, Nat.lt_succ_of_lt hklt⟩
  · simp only [openChannel, Option.some.injEq] at e; subst e; exact hk
  · exact isClosed_eq_false.2 ⟨fun hi => Nat.lt_irrefl _ (hw.closedChans_lt _ hi), hkc⟩

/-- **The `channel` getter** returns an open channel of the current connection and caches it;
nothing is closed by it. -/
theorem getChannel_spec (cd : Bool) (h : w.Wf) :
    let p := w.getChannel cd
    p.1.Wf ∧ p.1.channel = some p.2 ∧ p.1.connection = some p.2.conn ∧ p.1.isClosed p.2 = false ∧
      p.1.closedConns = w.closedConns ∧ p.1.closedChans = w.closedChans ∧ w.fresh ≤ p.1.fresh := by
  unfold getChannel
  split
  · rename_i c hc
    split
    · exact openChannel_spec cd h
    · rename_i hcl
      simp only [Bool.not_eq_true] at hcl
      exact ⟨h, hc, h.channel_conn c hc hcl, hcl, rfl, rfl, le_rfl⟩
  · exact openChannel_spec cd h

theorem Wf.closeConn (h : w.Wf) (hk : k < w.fresh) : (w.closeConn k).Wf where
  closedChans_lt := h.closedChans_lt
  closedConns_lt i hi := by rcases List.mem_cons.1 hi with rfl | hi; exacts [hk, h.closedConns_lt _ hi]
  connection_lt := h.connection_lt
  channel_lt := h.channel_lt
  channel_conn c hc hcl := h.channel_conn c hc (by simp_all [Wire.closeConn])

theorem Wf.closeChan (h : w.Wf) (hc : c.id < w.fresh) : (w.closeChan c).Wf where
  closedChans_lt i hi := by rcases List.mem_cons.1 hi with rfl | hi; exacts [hc, h.closedChans_lt _ hi]
  closedConns_lt := h.closedConns_lt
  connection_lt := h.connection_lt
  channel_lt := h.channel_lt
  channel_conn c hc' hcl := h.channel_conn c hc' (by simp_all [Wire.closeChan])

theorem Wf.fail (h : w.Wf) (hc : w.Alloc c) (r : Option AMQPError) : (w.fail c r).Wf := by
  rcases r with _ | _ | _
  exacts [h, h.closeConn hc.2, h.closeChan hc.1]

@[simp] theorem fail_channel (r : Option AMQPError) : (w.fail c r).channel = w.channel := by
  rcases r with _ | _ | _ <;> rfl

@[simp] theorem fail_connection (r : Option AMQPError) : (w.fail c r).connection = w.connection := by
  rcases r with _ | _ | _ <;> rfl

@[simp] theorem fail_fresh (r : Option AMQPError) : (w.fail c r).fresh = w.fresh := by
  rcases r with _ | _ | _ <;> rfl

theorem closedChans_sub_fail (w : Wire) (c : Chan) (r : Option AMQPError) : w.closedChans ⊆ (w.fail c r).closedChans := by
  rcases r with _ | _ | _ <;> simp [fail, closeConn, closeChan]

theorem closedConns_sub_fail (w : Wire) (c : Chan) (r : Option AMQPError) : w.closedConns ⊆ (w.fail c r).closedConns := by
  rcases r with _ | _ | _ <;> simp [fail, closeConn, closeChan]

theorem closedChans_sub_delChannel : w.closedChans ⊆ w.delChannel.closedChans := by
  unfold delChannel; split <;> simp [closeChan]

theorem closedConns_sub_delConnection : w.closedConns ⊆ w.delConnection.closedConns := by
  unfold delConnection; split <;> simp [closeConn]

theorem Wf.delConnection (h : w.Wf) : w.delConnection.Wf := by
  unfold Wire.delConnection
  split
  · rename_i k hk
    have h' := h.closeConn (h.connection_lt k hk)
    refine ⟨h'.closedChans_lt, h'.closedConns_lt, (fun _ e => nomatch e), h'.channel_lt, fun c hc hcl => ?_⟩
    have := h.channel_conn c hc (by simp_all [Wire.closeConn])
    simp_all [Wire.closeConn]
  · exact h

theorem Wf.delChannel (h : w.Wf) : w.delChannel.Wf := by
  unfold Wire.delChannel
  split
  · rename_i c hc
    have h' := h.closeChan (h.channel_lt c hc).1
    exact ⟨h'.closedChans_lt, h'.closedConns_lt, h'.connection_lt, (fun _ e => nomatch e), (fun _ e => nomatch e)⟩
  · exact h

end Wire

/-! ## The broker -/

structure Broker where
  cfg : Config
  actors : List Actor
  queues : List String
  delayQueues : List String
  queuesDeclared : Bool
  /-- The queues that exist on the RabbitMQ server (none is ever deleted). -/
  server : List String
  wire : Wire
  calls : Nat
  emits : Nat
  log : List Event

/-- `__init__`'s defaults: `confirm_delivery=False`, `max_priority=None`. -/
def Config.defaults : Config := ⟨false, none, nofun⟩

/-- A broker as `__init__` leaves it, with no queue on the server yet. -/
def Broker.init (cfg : Config) (actors : List Actor) : Broker :=
  ⟨cfg, actors, [], [], false, [], ⟨none, none, [], [], [], 0⟩, 0, 0, []⟩

theorem Broker.init_wf (cfg : Config) (actors : List Actor) : (Broker.init cfg actors).wire.Wf :=
  ⟨nofun, nofun, nofun, nofun, nofun⟩

abbrev Act := Broker → Broker × Option AMQPError

/-- Python statement sequencing: `g` runs unless `f` raised. -/
def Act.andThen (f g : Act) : Act := fun b =>
  match f b with
  | (b', none) => g b'
  | r => r

namespace Broker

def getChannel (b : Broker) : Broker × Chan :=
  let p := b.wire.getChannel b.cfg.confirmDelivery
  ({ b with wire := p.1 }, p.2)

def getConnection (b : Broker) : Broker × Nat :=
  let p := b.wire.getConnection
  ({ b with wire := p.1 }, p.2)

/-- `del self.connection` (rabbitmq.py:82-90). -/
def delConnection (b : Broker) : Broker :=
  { b with wire := b.wire.delConnection, log := b.log ++ (b.wire.connection.map Event.closeConnection).toList }

/-- `del self.channel` (rabbitmq.py:106-117). -/
def delChannel (b : Broker) : Broker :=
  { b with wire := b.wire.delChannel, log := b.log ++ (b.wire.channel.map Event.closeChannel).toList }

/-- `close` (rabbitmq.py:119-129). -/
def close (b : Broker) : Broker :=
  let b := b.delConnection
  { b with wire := { b.wire with connection := none } }

def declares : Method → Option AMQPError → List String
  | .queueDeclare q _ _, none => [q]
  | _, _ => []

/-- One AMQP method on channel `c`, the `b.calls`-th of the run. A channel-level error
leaves the channel closed and a connection-level one the connection, as the server and the
wire client do before the exception reaches the adapter. -/
def invoke (e : Env) (c : Chan) (m : Method) (b : Broker) : Broker × Option AMQPError :=
  let r := e.amqp b.calls
  ({ b with server := declares m r ++ b.server, wire := b.wire.fail c r, calls := b.calls + 1,
            log := b.log ++ [Event.call m c r] }, r)

def onChannel (e : Env) (m : Method) (b : Broker) : Broker × Option AMQPError :=
  let p := b.getChannel
  p.1.invoke e p.2 m

/-- Modelled from the spec: `Broker.emit_before` (broker.py is not in the source tree) runs the
middleware chain's `before_*` hooks, any of which may raise; here the emission is logged, and the
`b.emits`-th raises iff `e.hook`. -/
def emitBefore (e : Env) (s : Signal) (b : Broker) : Broker × Bool :=
  ({ b with emits := b.emits + 1, log := b.log ++ [Event.before s] }, e.hook b.emits)

/-- Modelled from the spec: `Broker.emit_after` (broker.py is not in the source tree) runs the
`after_*` hooks, whose failures are logged and never mask the outcome (spec §4.2). -/
def emitAfter (s : Signal) (b : Broker) : Broker := { b with log := b.log ++ [Event.after s] }

end Broker

end Remoulade

namespace Remoulade.Broker

/-! ## Field lemmas -/

variable {e : Env} {b : Broker} {m : Method} {s : Signal}

@[simp] theorem getChannel_wire : b.getChannel.1.wire = (b.wire.getChannel b.cfg.confirmDelivery).1 := rfl
@[simp] theorem getChannel_snd : b.getChannel.2 = (b.wire.getChannel b.cfg.confirmDelivery).2 := rfl

@[simp] theorem onChannel_snd : (b.onChannel e m).2 = e.amqp b.calls := rfl
@[simp] theorem onChannel_log :
    (b.onChannel e m).1.log = b.log ++ [Event.call m b.getChannel.2 (e.amqp b.calls)] := rfl
@[simp] theorem onChannel_wire :
    (b.onChannel e m).1.wire = b.getChannel.1.wire.fail b.getChannel.2 (e.amqp b.calls) := rfl
@[simp] theorem onChannel_server : (b.onChannel e m).1.server = declares m (e.amqp b.calls) ++ b.server := rfl
@[simp] theorem onChannel_calls : (b.onChannel e m).1.calls = b.calls + 1 := rfl
@[simp] theorem onChannel_cfg : (b.onChannel e m).1.cfg = b.cfg := rfl
@[simp] theorem onChannel_actors : (b.onChannel e m).1.actors = b.actors := rfl
@[simp] theorem onChannel_queues : (b.onChannel e m).1.queues = b.queues := rfl
@[simp] theorem onChannel_delayQueues : (b.onChannel e m).1.delayQueues = b.delayQueues := rfl
@[simp] theorem onChannel_queuesDeclared : (b.onChannel e m).1.queuesDeclared = b.queuesDeclared := rfl
@[simp] theorem onChannel_emits : (b.onChannel e m).1.emits = b.emits := rfl

theorem onChannel_wf (hw : b.wire.Wf) : (b.onChannel e m).1.wire.Wf := by
  obtain ⟨hw', hc, -⟩ := Wire.getChannel_spec b.cfg.confirmDelivery hw
  exact hw'.fail (hw'.channel_lt _ hc) _

end Remoulade.Broker
