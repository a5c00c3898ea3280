import Remoulade.Broker.DeclareQueue
import Remoulade.Broker.Enqueue
/-!
# Lazy topology declaration over a run (rabbitmq.py:131-181, :236-254, :351-360)

`queues_declared` is set by the first `enqueue` whose `_declare_rabbitmq_queues` completes
and is never reset; later enqueues skip the declarations. `consume` declares every queue of
`queues` on each call and then opens a consumer on a fresh channel, so it consumes only after
the declarations (`consume_declared`). Along every run that declares no new queue once
`queues_declared` is set, every publish follows the declarations of its queues
(`run_publishes_declared`, with the invariant `TopoInv`); a queue declared later is published to
though never declared (`enqueue_after_late_declare`).

| here | there |
| --- | --- |
| `consume`, `_RabbitmqConsumer.init` | `consume` (:131-150), `_RabbitmqConsumer.__init__` (:352-360) |
| `Op`, `step`, `exec` | a program's sequence of calls on one broker |
| `topology` | the main, delay and dead-letter queue of a logical queue (spec §4.1) |
| `Always`, `UsesAfter` | "every publish / consume comes after the completed declarations it needs" |
-/
namespace Remoulade

namespace Event

def publishKey : Event → Option String
  | call (.basicPublish _ routingKey _ _) _ _ => some routingKey
  | _ => none

def consumeQueue : Event → Option String
  | call (.basicConsume queue _) _ _ => some queue
  | _ => none

end Event

namespace Broker

/-! ## `consume` -/

/-- A `_RabbitmqConsumer`: its channel and its idle timeout in milliseconds. -/
structure _RabbitmqConsumer where
  channel : Chan
  timeout : Nat
deriving DecidableEq, Repr

/-- `connection.channel()` on `self.connection`: a fresh channel, neither cached for the
thread nor put in confirm mode. -/
def newChannel (b : Broker) : Broker × Chan :=
  let p := b.wire.getConnection
  ({ b with wire := { p.1 with fresh := p.1.fresh + 1 } }, ⟨p.1.fresh, p.2⟩)

/-- `_RabbitmqConsumer.__init__` (rabbitmq.py:352-360); an error is the `ConnectionClosed`
it raises. -/
def _RabbitmqConsumer.init (e : Env) (queueName : String) (prefetch timeout : Nat) (b : Broker) :
    Broker × Except AMQPError _RabbitmqConsumer :=
  let p := b.newChannel
  match p.1.invoke e p.2 (.basicQos prefetch) with
  | (b, some err) => (b, .error err)
  | (b, none) =>
    match b.invoke e p.2 (.basicConsume queueName false) with
    | (b, some err) => (b, .error err)
    | (b, none) => (b, .ok ⟨p.2, timeout⟩)

/-- `consume` (rabbitmq.py:131-150); an error is the `ConnectionClosed` it raises. -/
def consume (e : Env) (queueName : String) (prefetch timeout : Nat) (b : Broker) :
    Broker × Except AMQPError _RabbitmqConsumer :=
  match b._declareRabbitmqQueues e with
  | (b, some err) => (b.discard err, .error err)
  | (b, none) => _RabbitmqConsumer.init e queueName prefetch timeout b

/-! ## Runs -/

/-- The calls a program makes on the broker. -/
inductive Op where
  | declareQueue (queueName : String)
  | enqueue (message : Message) (delay : Option Int) (now : Int)
  | consume (queueName : String) (prefetch timeout : Nat)
  | close
deriving DecidableEq, Repr

/-- One call; an exception reaches the caller, who goes on. -/
def step (e : Env) (b : Broker) : Op → Broker
  | .declareQueue q => (declareQueue e q b).1
  | .enqueue m d now => (b.enqueue e m d now).1
  | .consume q prefetch timeout => (consume e q prefetch timeout b).1
  | .close => b.close

def exec (e : Env) (b : Broker) (ops : List Op) : Broker := ops.foldl (step e) b

/-- No `declare_queue` of a new name once `queues_declared` is set. -/
def earlyDeclares (e : Env) : Broker → List Op → Bool
  | _, [] => true
  | b, .declareQueue q :: ops => (!b.queuesDeclared || decide (q ∈ b.queues)) && earlyDeclares e (step e b (.declareQueue q)) ops
  | b, op :: ops => earlyDeclares e (step e b op) ops

/-! ## Used only after declared -/

/-- The three server queues of a logical queue (spec §4.1). -/
def topology (queueName : String) : List String := [queueName, dqName queueName, xqName queueName]

/-- Every event of `L` is `ok` given the log `pre` before it. -/
def Always (ok : List Event → Event → Prop) : List Event → List Event → Prop
  | _, [] => True
  | pre, ev :: L => ok pre ev ∧ Always ok (pre ++ [ev]) L

/-- An event that `sel` maps to a queue uses `target`, and only after the topology of
`queueName` was created by completed declarations of the log `pre` before it. -/
def UsesAfter (sel : Event → Option String) (target queueName : String) (pre : List Event) (ev : Event) : Prop :=
  ∀ k, sel ev = some k → k = target ∧ ∀ x ∈ topology queueName, x ∈ pre.filterMap Event.created

variable {ok : List Event → Event → Prop} {sel : Event → Option String} {t q : String}

theorem always_append {pre L₁ L₂ : List Event} :
    Always ok pre (L₁ ++ L₂) ↔ Always ok pre L₁ ∧ Always ok (pre ++ L₁) L₂ := by
  induction L₁ generalizing pre with
  | nil => simp [Always]
  | cons ev L ih => simp [Always, ih, and_assoc]

theorem always_usesAfter {pre L : List Event}
    (h : ∀ ev ∈ L, ∀ k, sel ev = some k → k = t ∧ ∀ x ∈ topology q, x ∈ pre.filterMap Event.created) :
    Always (UsesAfter sel t q) pre L := by
  induction L generalizing pre with
  | nil => trivial
  | cons ev L ih =>
    refine ⟨h ev (List.mem_cons_self _ _), ih fun ev' hev k hk => ?_⟩
    obtain ⟨rfl, ht⟩ := h ev' (List.mem_cons_of_mem _ hev) k hk
    exact ⟨rfl, fun x hx => by simp only [List.filterMap_append, List.mem_append]; exact .inl (ht x hx)⟩

theorem always_of_none {pre L : List Event} (h : ∀ ev ∈ L, sel ev = none) : Always (UsesAfter sel t q) pre L :=
  always_usesAfter fun ev hev k hk => by simp [h ev hev] at hk

/-! ## Declarations -/

variable {e : Env} {b : Broker}

theorem Act.andThen_none {f g : Act} (h : (f.andThen g b).2 = none) :
    (f b).2 = none ∧ f.andThen g b = g (f b).1 := by
  unfold Act.andThen at *
  rcases hf : f b with ⟨b', _ | err⟩ <;> simp_all

/-- A completed pass of `_declare_rabbitmq_queues`'s loop body creates the topology of its
queue. -/
theorem declareTopology_done (h : (declareTopology e q b).2 = none) :
    ∀ x ∈ topology q, x ∈ (declareTopology e q b).1.server ∧
      x ∈ (declareTopology e q b).1.log.filterMap Event.created := by
  have h₁ := (Act.andThen_none h).1
  have hq : declareTopology e q b = Act.andThen (_declareDqQueue e q) (_declareXqQueue e q) (_declareQueue e q b).1 :=
    (Act.andThen_none h).2
  rw [hq] at h ⊢
  obtain ⟨h₂, hq'⟩ := Act.andThen_none h
  rw [hq'] at h ⊢
  simp only [_declareQueue, _declareDqQueue, _declareXqQueue, onChannel_snd, onChannel_calls] at h₁ h₂ h
  simp [topology, _declareQueue, _declareDqQueue, _declareXqQueue, h₁, h₂, h, declares, Event.created]

/-- A completed `_declare_rabbitmq_queues` over `qs` created the topology of each. -/
theorem declareEach_done (e : Env) : ∀ (qs : List String) (b : Broker), b.wire.Wf → (declareEach e qs b).2 = none →
    ∀ q ∈ qs, ∀ x ∈ topology q, x ∈ (declareEach e qs b).1.server ∧
      x ∈ (declareEach e qs b).1.log.filterMap Event.created
  | [], _, _, _ => nofun
  | p :: qs, b, hw, h => by
    have h₁ := (Act.andThen_none h).1
    have hq : declareEach e (p :: qs) b = declareEach e qs (declareTopology e p b).1 := (Act.andThen_none h).2
    have hw₁ := (declOnly_declareTopology e p b hw).1
    rw [hq] at h ⊢
    intro q hq' x hx
    rcases List.mem_cons.1 hq' with rfl | hq'
    · obtain ⟨-, -, -, D, hD, -⟩ := declOnly_declareEach e qs _ hw₁
      obtain ⟨hs, hl⟩ := declareTopology_done h₁ x hx
      exact ⟨hD.created_mono.1 hs, hD.created_mono.2 hl⟩
    · exact declareEach_done e qs _ hw₁ h q hq' x hx

theorem publishKey_of_isDeclared {ev : Event} (h : ev.isDeclared) : ev.publishKey = none ∧ ev.consumeQueue = none := by
  rcases ev with _ | _ | ⟨_ | _ | _ | _ | _, _, _ | _⟩ | _ | _ <;> simp_all [Event.isDeclared, Event.publishKey, Event.consumeQueue]

theorem DeclLog.quiet {D : List Event} {r : Option AMQPError} (h : DeclLog D b r) :
    ∀ ev ∈ D, ev.publishKey = none ∧ ev.consumeQueue = none := by
  cases r with
  | none => exact fun ev hev => publishKey_of_isDeclared (h ev hev)
  | some err =>
    obtain ⟨D', q, d, a, c, rfl, hD', -⟩ := h
    intro ev hev
    rcases List.mem_append.1 hev with hev | hev
    · exact publishKey_of_isDeclared (hD' ev hev)
    · simp only [List.mem_singleton] at hev; subst hev; exact ⟨rfl, rfl⟩

/-! ## The invariant of the runs -/

/-- What the runs of `run_publishes_declared` keep: the server holds only queues that
completed declarations of the log created, and once `queues_declared` is set it holds the
topology of every queue of `queues`. -/
structure TopoInv (b : Broker) : Prop where
  wf : b.wire.Wf
  server : ∀ x ∈ b.server, x ∈ b.log.filterMap Event.created
  declared : b.queuesDeclared = true → ∀ q ∈ b.queues, ∀ x ∈ topology q, x ∈ b.server

theorem TopoInv.init (cfg : Config) (actors : List Actor) : TopoInv (Broker.init cfg actors) :=
  ⟨Broker.init_wf cfg actors, nofun, nofun⟩

theorem TopoInv.extend {b' : Broker} {L : List Event} (h : TopoInv b) (hx : Extends b b' L) (hw : b'.wire.Wf)
    (hq : b'.queues = b.queues) (hd : b'.queuesDeclared = true → b.queuesDeclared = true) : TopoInv b' where
  wf := hw
  server x hs := by
    rw [hx.log, List.filterMap_append, List.mem_append]
    exact ((hx.server x).1 hs).imp (h.server x) id
  declared hd' q hq' x ht := hx.created_mono.1 (h.declared (hd hd') q (hq ▸ hq') x ht)

/-- From `b` to `b'` the invariant and `queues` are kept, and if `queueName` is a queue of
`queues`, every `sel`-use of the events in between is of `target` after the topology of
`queueName` was created. -/
def Guarded (sel : Event → Option String) (target queueName : String) (b b' : Broker) : Prop :=
  TopoInv b' ∧ b'.queues = b.queues ∧
    ∃ L, b'.log = b.log ++ L ∧ (queueName ∈ b.queues → Always (UsesAfter sel target queueName) b.log L)

theorem Guarded.refl (h : TopoInv b) : Guarded sel t q b b := ⟨h, rfl, [], by simp, fun _ => trivial⟩

theorem Guarded.trans {b' b'' : Broker} (h₁ : Guarded sel t q b b') (h₂ : Guarded sel t q b' b'') :
    Guarded sel t q b b'' := by
  obtain ⟨-, hq₁, L₁, hl₁, ha₁⟩ := h₁
  obtain ⟨hi, hq₂, L₂, hl₂, ha₂⟩ := h₂
  refine ⟨hi, hq₂.trans hq₁, L₁ ++ L₂, by rw [hl₂, hl₁, List.append_assoc], fun hq => ?_⟩
  exact always_append.2 ⟨ha₁ hq, hl₁ ▸ ha₂ (hq₁ ▸ hq)⟩

/-- A continuation all of whose uses are of `target`, once the topology is on the server. -/
theorem Guarded.of_extends {b' : Broker} {L : List Event} (h : TopoInv b) (hx : Extends b b' L) (hw : b'.wire.Wf)
    (hq : b'.queues = b.queues) (hd : b'.queuesDeclared = true → b.queuesDeclared = true)
    (hL : ∀ ev ∈ L, ∀ k, sel ev = some k → k = t ∧ (q ∈ b.queues → ∀ x ∈ topology q, x ∈ b.server)) :
    Guarded sel t q b b' :=
  ⟨h.extend hx hw hq hd, hq, L, hx.log, fun hq' => always_usesAfter fun ev hev k hk =>
    (hL ev hev k hk).imp id fun ht x hx' => h.server x (ht hq' x hx')⟩

/-! ## `enqueue` keeps the invariant and publishes after the declarations -/

variable {m : Message} {d : Option Int} {props : Options}

theorem ensureDeclared_topo (h : TopoInv b) :
    TopoInv (ensureDeclared e b).1 ∧ ((ensureDeclared e b).2 = none →
      ∀ q ∈ b.queues, ∀ x ∈ topology q, x ∈ (ensureDeclared e b).1.server) := by
  by_cases hd : b.queuesDeclared = true
  · have he : ensureDeclared e b = (b, none) := by simp [ensureDeclared, hd]
    rw [he]
    exact ⟨h, fun _ => h.declared hd⟩
  obtain ⟨hw, hq, hqd, D, hx, -⟩ := declOnly_declareEach e b.queues b h.wf
  have hdone := declareEach_done e b.queues b h.wf
  rcases hr : declareEach e b.queues b with ⟨b₁, _ | err⟩ <;> rw [hr] at hw hq hqd hx hdone
  · have he : ensureDeclared e b = ({ b₁ with queuesDeclared := true }, none) := by
      simp [ensureDeclared, hd, _declareRabbitmqQueues, hr]
    rw [he]
    have h₁ := h.extend hx hw hq (by simp_all)
    exact ⟨⟨hw, h₁.server, fun _ q hq' x ht => (hdone rfl q (hq ▸ hq') x ht).1⟩,
      fun _ q hq' x ht => (hdone rfl q hq' x ht).1⟩
  · have he : ensureDeclared e b = (b₁, some err) := by simp [ensureDeclared, hd, _declareRabbitmqQueues, hr]
    rw [he]
    exact ⟨h.extend hx hw hq (by simp_all), nofun⟩

theorem publishOnce_guarded (m : Message) (d : Option Int) (rk : String) (props : Options) (h : TopoInv b)
    (ht : q ∈ b.queues → ∀ x ∈ topology q, x ∈ b.server) :
    Guarded Event.publishKey rk q b (publishOnce e m d rk props b).1 := by
  let b₁ := (b.emitBefore e (.enqueue m d)).1
  let pub := Method.basicPublish "" rk m props
  have hx₁ : Extends b b₁ [Event.before (.enqueue m d)] := Extends.emitBefore e _
  have hx₂ := hx₁.trans (Extends.onChannel (show b₁.wire.Wf from h.wf) e pub)
  have hw₂ : (b₁.onChannel e pub).1.wire.Wf := onChannel_wf h.wf
  have hL : ∀ L : List Event, (∀ ev ∈ L, ev = .after (.enqueue m d)) →
      ∀ ev ∈ [Event.before (.enqueue m d), Event.call pub b₁.getChannel.2 (e.amqp b₁.calls)] ++ L,
        ∀ k, ev.publishKey = some k → k = rk ∧ (q ∈ b.queues → ∀ x ∈ topology q, x ∈ b.server) := by
    intro L hL ev hev k hk
    rcases List.mem_append.1 hev with hev | hev
    · simp only [List.mem_cons, List.mem_singleton, List.not_mem_nil, or_false] at hev
      rcases hev with rfl | rfl
      · simp [Event.publishKey] at hk
      · simp only [Event.publishKey, pub, Option.some.injEq] at hk
        exact ⟨hk.symm, ht⟩
    · simp [hL ev hev, Event.publishKey] at hk
  unfold publishOnce
  cases hk : e.hook b.emits
  · have hp : (b.emitBefore e (.enqueue m d)) = (b₁, false) := by simp [b₁, emitBefore, hk]
    rw [hp]; dsimp only
    rcases hr : e.amqp b₁.calls with _ | err
    · have hq : b₁.onChannel e pub = ((b₁.onChannel e pub).1, none) := Prod.ext rfl hr
      rw [show Method.basicPublish "" rk m props = pub from rfl, hq]
      exact .of_extends h (hx₂.trans (Extends.emitAfter _)) hw₂ rfl id
        (hL [.after (.enqueue m d)] (by simp))
    · have hq : b₁.onChannel e pub = ((b₁.onChannel e pub).1, some err) := Prod.ext rfl hr
      rw [show Method.basicPublish "" rk m props = pub from rfl, hq]
      exact .of_extends h hx₂ hw₂ rfl id (by simpa using hL [] (by simp))
  · have hp : (b.emitBefore e (.enqueue m d)) = (b₁, true) := by simp [b₁, emitBefore, hk]
    rw [hp]
    exact .of_extends h hx₁ h.wf rfl id fun ev hev k hk' => by simp_all [Event.publishKey]

/-- One attempt: the declarations, if they run, publish nothing, and a publish follows a
completed `_declare_rabbitmq_queues` or a set `queues_declared`. -/
theorem enqueueAttempt_guarded (m : Message) (d : Option Int) (rk : String) (props : Options) (h : TopoInv b) :
    Guarded Event.publishKey rk q b (enqueueAttempt e m d rk props b).1 := by
  obtain ⟨h₁, hdone⟩ := ensureDeclared_topo (e := e) h
  obtain ⟨-, hq, -, D, hx, hl⟩ := ensureDeclared_spec e h.wf
  have g : Guarded Event.publishKey rk q b (ensureDeclared e b).1 :=
    ⟨h₁, hq, D, hx.log, fun _ => always_of_none fun ev hev => (hl.quiet ev hev).1⟩
  unfold enqueueAttempt
  rcases hr : ensureDeclared e b with ⟨b₁, _ | err⟩ <;> rw [hr] at h₁ hdone g hq
  · exact g.trans (publishOnce_guarded m d rk props h₁ fun hq' => hdone rfl q (hq ▸ hq'))
  · exact g

theorem discard_extends (hw : b.wire.Wf) (err : AMQPError) :
    (b.discard err).wire.Wf ∧ ∃ F, Extends b (b.discard err) F ∧ ∀ ev ∈ F, ev.publishKey = none ∧ ev.consumeQueue = none := by
  cases err with
  | connection =>
    exact ⟨hw.delConnection, _, Extends.delConnection, by cases b.wire.connection <;> simp [Event.publishKey, Event.consumeQueue]⟩
  | channel =>
    exact ⟨hw.delChannel, _, Extends.delChannel, by cases b.wire.channel <;> simp [Event.publishKey, Event.consumeQueue]⟩

theorem discard_guarded (h : TopoInv b) (err : AMQPError) : Guarded Event.publishKey t q b (b.discard err) :=
  let ⟨hw, _, hx, hF⟩ := discard_extends h.wf err
  .of_extends h hx hw (by cases err <;> rfl) (by cases err <;> exact id) fun ev hev k hk => by simp [(hF ev hev).1] at hk

/-- **The retry loop** keeps the invariant, and every publish of it follows the declarations. -/
theorem enqueueLoop_guarded (m : Message) (d : Option Int) (rk : String) (props : Options) (attempts : Nat)
    (b : Broker) (h : TopoInv b) : Guarded Event.publishKey rk q b (enqueueLoop e m d rk props attempts b).1 := by
  have step : ∀ b, TopoInv b → Guarded Event.publishKey rk q b (enqueueAttempt e m d rk props b).1 :=
    fun b h => enqueueAttempt_guarded m d rk props h
  induction attempts, b using enqueueLoop.induct e m d rk props with
  | case1 attempts b b₁ hr | case2 attempts b b₁ hr =>
    have g := step b h
    rw [hr] at g
    rw [enqueueLoop, hr]
    exact g
  | case3 attempts b b₁ err hr hlt =>
    have g := step b h
    rw [hr] at g
    rw [enqueueLoop, hr]
    simp only [hlt, if_true]
    exact g.trans (discard_guarded g.1 err)
  | case4 attempts b b₁ err hr hlt ih =>
    have g := step b h
    rw [hr] at g
    rw [enqueueLoop, hr]
    simp only [hlt, if_false]
    have g' := g.trans (discard_guarded g.1 err)
    exact g'.trans (ih g'.1)

theorem enqueue_guarded (m : Message) (delay : Option Int) (now : Int) (h : TopoInv b) :
    Guarded Event.publishKey (target m delay now).1 m.queueName b (b.enqueue e m delay now).1 := by
  unfold enqueue
  cases getActor b.actors m.actorName with
  | none => exact .refl h
  | some a => exact enqueueLoop_guarded _ _ _ _ 1 b h

/-! ## `consume` declares before it consumes -/

/-- One method on an allocated, open channel of a well-formed wire: the wire stays well formed
and the channel allocated, the channel is still open when the method succeeds, and the call is
the one event it adds. -/
theorem invoke_spec {c : Chan} (hw : b.wire.Wf) (hal : b.wire.Alloc c) (hc : b.wire.isClosed c = false)
    (e : Env) (m : Method) :
    (b.invoke e c m).1.wire.Wf ∧ (b.invoke e c m).1.wire.Alloc c ∧
      ((b.invoke e c m).2 = none → (b.invoke e c m).1.wire.isClosed c = false) ∧
      Extends b (b.invoke e c m).1 [Event.call m c (b.invoke e c m).2] ∧
      (b.invoke e c m).1.queues = b.queues ∧ (b.invoke e c m).1.queuesDeclared = b.queuesDeclared :=
  ⟨hw.fail hal _, by simpa [Broker.invoke, Wire.Alloc] using hal,
    fun h => by simp only [Broker.invoke] at h ⊢; simpa [h, Wire.fail] using hc, Extends.invoke hc e m, rfl, rfl⟩

theorem newChannel_spec (hw : b.wire.Wf) :
    b.newChannel.1.wire.Wf ∧ b.newChannel.1.wire.isClosed b.newChannel.2 = false ∧
      b.newChannel.1.wire.Alloc b.newChannel.2 ∧ Extends b b.newChannel.1 [] ∧
      b.newChannel.1.queues = b.queues ∧ b.newChannel.1.queuesDeclared = b.queuesDeclared := by
  obtain ⟨hw', -, hkc, hklt, -, hcc, hcs, -, -⟩ := Wire.getConnection_spec hw
  refine ⟨⟨fun i hi => Nat.lt_succ_of_lt (hw'.closedChans_lt i hi), fun i hi => Nat.lt_succ_of_lt (hw'.closedConns_lt i hi),
    fun k e => Nat.lt_succ_of_lt (hw'.connection_lt k e), fun c e => (hw'.channel_lt c e).imp Nat.lt_succ_of_lt Nat.lt_succ_of_lt,
    hw'.channel_conn⟩, Wire.isClosed_eq_false.2 ⟨fun hi => Nat.lt_irrefl _ (hw'.closedChans_lt _ hi), hkc⟩,
    ⟨Nat.lt_succ_self _, Nat.lt_succ_of_lt hklt⟩, .quiet (by simp [newChannel]) rfl ?_ ?_ (by simp), rfl, rfl⟩
  · simp [newChannel, hcs]
  · simp [newChannel, hcc]

/-- `_RabbitmqConsumer.__init__` sends `basic.qos` and then `basic.consume(queueName)` on
its fresh channel, and nothing else: no publish and no declaration. -/
theorem consumerInit_spec (e : Env) (queueName : String) (prefetch timeout : Nat) (hw : b.wire.Wf) :
    (_RabbitmqConsumer.init e queueName prefetch timeout b).1.wire.Wf ∧
      (_RabbitmqConsumer.init e queueName prefetch timeout b).1.queues = b.queues ∧
      (_RabbitmqConsumer.init e queueName prefetch timeout b).1.queuesDeclared = b.queuesDeclared ∧
      ∃ C, Extends b (_RabbitmqConsumer.init e queueName prefetch timeout b).1 C ∧
        (∀ ev ∈ C, ev.publishKey = none ∧ ∀ k, ev.consumeQueue = some k → k = queueName) ∧
        ∀ ev ∈ C, ev.declaration = none := by
  obtain ⟨hw₁, hcl, hal, hx₁, hq₁, hd₁⟩ := newChannel_spec hw
  obtain ⟨hw₂, hal₂, hcl₂, hx₂, hq₂, hd₂⟩ := invoke_spec hw₁ hal hcl e (.basicQos prefetch)
  unfold _RabbitmqConsumer.init
  dsimp only
  rcases hr : b.newChannel.1.invoke e b.newChannel.2 (.basicQos prefetch) with ⟨b₂, _ | err⟩ <;>
    rw [hr] at hw₂ hal₂ hcl₂ hx₂ hq₂ hd₂ <;> dsimp only
  · obtain ⟨hw₃, -, -, hx₃, hq₃, hd₃⟩ := invoke_spec hw₂ hal₂ (hcl₂ rfl) e (.basicConsume queueName false)
    rcases hr' : b₂.invoke e b.newChannel.2 (.basicConsume queueName false) with ⟨b₃, _ | err'⟩ <;>
      rw [hr'] at hw₃ hx₃ hq₃ hd₃ <;> dsimp only <;>
      exact ⟨hw₃, hq₃.trans (hq₂.trans hq₁), hd₃.trans (hd₂.trans hd₁), _, (hx₁.trans hx₂).trans hx₃,
        by simp [Event.publishKey, Event.consumeQueue, eq_comm], by simp [Event.declaration]⟩
  · exact ⟨hw₂, hq₂.trans hq₁, hd₂.trans hd₁, _, hx₁.trans hx₂, by simp [Event.publishKey, Event.consumeQueue],
      by simp [Event.declaration]⟩

/-- **`consume`** (rabbitmq.py:131-150): it declares every queue of `queues`; if that
completes, it opens the consumer, whose `basic.consume` then follows the declarations. -/
theorem consume_spec (e : Env) (queueName : String) (prefetch timeout : Nat) (hw : b.wire.Wf) :
    (consume e queueName prefetch timeout b).1.wire.Wf ∧ (consume e queueName prefetch timeout b).1.queues = b.queues ∧
      (consume e queueName prefetch timeout b).1.queuesDeclared = b.queuesDeclared ∧
      ∃ L, Extends b (consume e queueName prefetch timeout b).1 L ∧ (∀ ev ∈ L, ev.publishKey = none) ∧
        (queueName ∈ b.queues → Always (UsesAfter Event.consumeQueue queueName queueName) b.log L) := by
  obtain ⟨hw₁, hq₁, hd₁, D, hx₁, hl₁⟩ := declOnly_declareEach e b.queues b hw
  have hdone := declareEach_done e b.queues b hw
  unfold consume _declareRabbitmqQueues
  rcases hr : declareEach e b.queues b with ⟨b₁, _ | err⟩ <;> rw [hr] at hw₁ hq₁ hd₁ hx₁ hl₁ hdone <;> dsimp only
  · obtain ⟨hw₂, hq₂, hd₂, C, hx₂, hC, -⟩ := consumerInit_spec e queueName prefetch timeout hw₁
    refine ⟨hw₂, hq₂.trans hq₁, hd₂.trans hd₁, D ++ C, hx₁.trans hx₂, fun ev hev => ?_, fun hq => ?_⟩
    · exact (List.mem_append.1 hev).elim (fun h => (hl₁.quiet ev h).1) fun h => (hC ev h).1
    · refine always_append.2 ⟨always_of_none fun ev hev => (hl₁.quiet ev hev).2, always_usesAfter fun ev hev k hk => ?_⟩
      exact ⟨(hC ev hev).2 k hk, fun x hx => hx₁.log ▸ (hdone rfl queueName hq x hx).2⟩
  · obtain ⟨hw₂, F, hx₂, hF⟩ := discard_extends hw₁ err
    refine ⟨hw₂, by cases err <;> exact hq₁, by cases err <;> exact hd₁, D ++ F, hx₁.trans hx₂, fun ev hev => ?_,
      fun _ => always_of_none fun ev hev => ?_⟩
    · exact (List.mem_append.1 hev).elim (fun h => (hl₁.quiet ev h).1) fun h => (hF ev h).1
    · exact (List.mem_append.1 hev).elim (fun h => (hl₁.quiet ev h).2) fun h => (hF ev h).2

/-- **`consume` declares before it consumes**: on every broker state, a `consume` of a queue
of `queues` sends its `basic.consume`, if it gets that far, only after the queue, its delay
queue and its dead-letter queue were declared by completed methods. -/
theorem consume_declared (e : Env) (b : Broker) (queueName : String) (prefetch timeout : Nat) (hw : b.wire.Wf)
    (hq : queueName ∈ b.queues) :
    ∃ L, (consume e queueName prefetch timeout b).1.log = b.log ++ L ∧
      Always (UsesAfter Event.consumeQueue queueName queueName) b.log L :=
  let ⟨_, _, _, L, hx, _, ha⟩ := consume_spec e queueName prefetch timeout hw
  ⟨L, hx.log, ha hq⟩

theorem consume_declared_default :
    (declareQueue Env.ok "default" (Broker.init Config.defaults [])).1.wire.Wf ∧
      "default" ∈ (declareQueue Env.ok "default" (Broker.init Config.defaults [])).1.queues ∧
      ∃ L, (consume Env.ok "default" 1 5000 (declareQueue Env.ok "default" (Broker.init Config.defaults [])).1).1.log =
        (declareQueue Env.ok "default" (Broker.init Config.defaults [])).1.log ++ L ∧
        Always (UsesAfter Event.consumeQueue "default" "default")
          (declareQueue Env.ok "default" (Broker.init Config.defaults [])).1.log L :=
  ⟨Broker.init_wf Config.defaults [], by decide,
    consume_declared Env.ok _ "default" 1 5000 (Broker.init_wf Config.defaults []) (by decide)⟩

/-! ## The run -/

theorem TopoInv.declareQueue (h : TopoInv b) (hq : b.queuesDeclared = true → q ∈ b.queues) :
    TopoInv (declareQueue e q b).1 := by
  have hs : ∀ L : List Event, ∀ x ∈ b.server, x ∈ (b.log ++ L).filterMap Event.created := fun L x hx => by
    rw [List.filterMap_append, List.mem_append]; exact .inl (h.server x hx)
  rw [declareQueue_eq]
  split_ifs with h₁ h₂
  · exact h
  · exact ⟨h.wf, hs _, h.declared⟩
  · exact ⟨h.wf, hs _, fun hd => absurd (hq hd) h₁⟩

theorem close_wire (b : Broker) : b.close.wire = b.wire.delConnection := by
  rcases b with ⟨_, _, _, _, _, _, ⟨_ | k, _, _, _, _, _⟩, _⟩ <;> rfl

theorem TopoInv.close (h : TopoInv b) : TopoInv b.close :=
  h.extend (Extends.delConnection.congr rfl rfl (close_wire b)) (close_wire b ▸ h.wf.delConnection) rfl id

/-- **One call of a run** keeps the invariant, unless it declares a new queue after
`queues_declared` was set. -/
theorem TopoInv.step (h : TopoInv b) (op : Op)
    (hop : ∀ q, op = .declareQueue q → b.queuesDeclared = true → q ∈ b.queues) : TopoInv (step e b op) := by
  cases op with
  | declareQueue q => exact h.declareQueue (hop q rfl)
  | enqueue m d now => exact (enqueue_guarded m d now h).1
  | consume q prefetch timeout =>
    obtain ⟨hw, hq, hd, L, hx, -⟩ := consume_spec e q prefetch timeout h.wf
    exact h.extend hx hw hq hd.le
  | close => exact h.close

theorem TopoInv.run (e : Env) : ∀ (ops : List Op) (b : Broker), TopoInv b → earlyDeclares e b ops = true →
    TopoInv (exec e b ops)
  | [], _, h, _ => h
  | .declareQueue q :: ops, b, h, he => by
    simp only [earlyDeclares, Bool.and_eq_true, Bool.or_eq_true, Bool.not_eq_true', decide_eq_true_eq] at he
    exact TopoInv.run e ops _ (h.step _ fun q' hq' hd => by cases hq'; simpa [hd] using he.1) he.2
  | .enqueue m d now :: ops, b, h, he => TopoInv.run e ops _ (h.step _ nofun) he
  | .consume q p t :: ops, b, h, he => TopoInv.run e ops _ (h.step _ nofun) he
  | .close :: ops, b, h, he => TopoInv.run e ops _ (h.step _ nofun) he

/-- **Publishes follow the declarations** along every run from a broker as `__init__` leaves
it in which no new queue is declared once `queues_declared` is set: whatever the outcomes of
the AMQP methods and of the hooks, the next `enqueue` of a message whose queue is in `queues`
publishes only to the message's routing key (`q`, or `dq_name(q)` with a delay), and each of
its publishes comes after completed declarations of `q`, `dq_name(q)` and `xq_name(q)`. -/
theorem run_publishes_declared (e : Env) (cfg : Config) (actors : List Actor) (ops : List Op)
    (h : earlyDeclares e (Broker.init cfg actors) ops = true) (m : Message) (delay : Option Int) (now : Int)
    (hq : m.queueName ∈ (exec e (Broker.init cfg actors) ops).queues) :
    ∃ L, ((exec e (Broker.init cfg actors) ops).enqueue e m delay now).1.log =
        (exec e (Broker.init cfg actors) ops).log ++ L ∧
      Always (UsesAfter Event.publishKey (target m delay now).1 m.queueName) (exec e (Broker.init cfg actors) ops).log L :=
  let ⟨_, _, L, hl, ha⟩ := enqueue_guarded m delay now (TopoInv.run e ops _ (TopoInv.init cfg actors) h)
  ⟨L, hl, ha hq⟩

theorem run_publishes_declared_default :
    earlyDeclares Env.ok (Broker.init Config.defaults [addActor]) [.declareQueue "default"] = true ∧
      addMessage.queueName ∈ (exec Env.ok (Broker.init Config.defaults [addActor]) [.declareQueue "default"]).queues ∧
      ∃ L, ((exec Env.ok (Broker.init Config.defaults [addActor]) [.declareQueue "default"]).enqueue
          Env.ok addMessage none 0).1.log = (exec Env.ok (Broker.init Config.defaults [addActor]) [.declareQueue "default"]).log ++ L ∧
        Always (UsesAfter Event.publishKey (target addMessage none 0).1 addMessage.queueName)
          (exec Env.ok (Broker.init Config.defaults [addActor]) [.declareQueue "default"]).log L :=
  ⟨by decide, by decide,
    run_publishes_declared Env.ok Config.defaults [addActor] [.declareQueue "default"] (by decide) addMessage none 0 (by decide)⟩

/-! ## The divergence -/

def mulActor : Actor := ⟨"mul", "other", []⟩

def mulMessage : Message := ⟨"other", "mul", "m2", []⟩

/-- `declare_queue("default")`, an `enqueue` that completes and so sets `queues_declared`,
then `declare_queue("other")`. -/
def lateDeclare : List Op := [.declareQueue "default", .enqueue addMessage none 0, .declareQueue "other"]

/-- **A queue declared after the first successful `enqueue` is never declared on the
server**: with every AMQP method completing, the run `lateDeclare` (which `earlyDeclares`
rejects) followed by an `enqueue` for `other` publishes to `default` and then, successfully,
to `other`, and no declaration of `other` was ever sent. -/
theorem enqueue_after_late_declare :
    earlyDeclares Env.ok (Broker.init Config.defaults [addActor, mulActor]) lateDeclare = false ∧
      "other" ∈ (exec Env.ok (Broker.init Config.defaults [addActor, mulActor]) lateDeclare).queues ∧
      ((exec Env.ok (Broker.init Config.defaults [addActor, mulActor]) lateDeclare).enqueue Env.ok mulMessage none 0).2 =
        .ok mulMessage ∧
      ((exec Env.ok (Broker.init Config.defaults [addActor, mulActor]) lateDeclare).enqueue
        Env.ok mulMessage none 0).1.log.filterMap Event.publishKey = ["default", "other"] ∧
      ((exec Env.ok (Broker.init Config.defaults [addActor, mulActor]) lateDeclare).enqueue
        Env.ok mulMessage none 0).1.log.countP Event.isFailure = 0 ∧
      "other" ∉ ((exec Env.ok (Broker.init Config.defaults [addActor, mulActor]) lateDeclare).enqueue
        Env.ok mulMessage none 0).1.log.filterMap Event.created := by
  let b₁ := (declareQueue Env.ok "default" (Broker.init Config.defaults [addActor, mulActor])).1
  let b₂ := (enqueueAttempt Env.ok addMessage none "default"
    [("delivery_mode", .int 2), ("priority", priorityOf addMessage addActor)] b₁).1
  let b₃ := (declareQueue Env.ok "other" b₂).1
  have e₁ : b₁.enqueue Env.ok addMessage none 0 = (b₂, .ok addMessage) :=
    enqueue_of_ok 0 (show getActor b₁.actors addMessage.actorName = some addActor from rfl) (by decide)
  have e₂ : b₃.enqueue Env.ok mulMessage none 0 = ((enqueueAttempt Env.ok mulMessage none "other"
      [("delivery_mode", .int 2), ("priority", priorityOf mulMessage mulActor)] b₃).1, .ok mulMessage) :=
    enqueue_of_ok 0 (show getActor b₃.actors mulMessage.actorName = some mulActor from rfl) (by decide)
  have hx : exec Env.ok (Broker.init Config.defaults [addActor, mulActor]) lateDeclare = b₃ := by
    show (declareQueue Env.ok "other" (b₁.enqueue Env.ok addMessage none 0).1).1 = b₃
    rw [e₁]
  have he : earlyDeclares Env.ok (Broker.init Config.defaults [addActor, mulActor]) lateDeclare =
      earlyDeclares Env.ok b₂ [.declareQueue "other"] := by
    show earlyDeclares Env.ok (b₁.enqueue Env.ok addMessage none 0).1 [.declareQueue "other"] = _
    rw [e₁]
  rw [he, hx, e₂]
  exact ⟨by decide, by decide, rfl, by decide, by decide, by decide⟩

end Broker

end Remoulade
