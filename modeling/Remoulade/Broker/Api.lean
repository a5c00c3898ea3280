import Remoulade.Broker.Inspect
/-!
# The broker's API over whole runs (rabbitmq.py:131-348)

A program calls the broker in any order, under any outcome of each AMQP method and each hook,
and goes on after an exception. `Continues Q b b'` is what every call keeps: the wire stays well
formed, `b'` continues `b` (`Extends`), no method runs on a channel or a connection a deleter
closed (`Event.StaysClosed`), and, while the program's queue names lie in `Q`, every
`queue.declare` is a topology declaration of a name of `Q`. Each action below a call is shown
`Sound` once, and the calls are assembled from those lemmas. `run_safe`: along every run the wire
is well formed, what the adapter closed is never used again, and `enqueue` and `consume` close
what failed at once; `run_declarations_agree`: with topology-disjoint names, the declarations of
a server queue agree.

| here | there |
| --- | --- |
| `Call`, `perform`, `run` | a program's calls on one broker, in any order |
| `topologyDeclarations` | the methods of `_declare_queue`, `_declare_dq_queue`, `_declare_xq_queue` (:193-206) |
| `Continues`, `Sound` | what one call, and each action below it, keeps |
| `Call.Discards` | the `except` clauses of `enqueue` (:256-262) and `consume` (:143-148) |
-/
namespace Remoulade

namespace Event

theorem plain_of_purgedQueue {ev : Event} {x : String} (h : ev.purgedQueue = some x) :
    ev.declaration = none ∧ ev.isClose = false := by
  rcases ev with _ | _ | ⟨_ | _ | _ | _ | _, _, _ | _⟩ | _ | _ <;> first | exact ⟨rfl, rfl⟩ | cases h

end Event

namespace Broker

/-- The declarations `_declare_queue`, `_declare_dq_queue` and `_declare_xq_queue` send for
`queueName` (rabbitmq.py:193-206). -/
def topologyDeclarations (cfg : Config) (queueName : String) : List Method :=
  [.queueDeclare queueName true (_buildQueueArguments cfg queueName),
   .queueDeclare (dqName queueName) true (_buildQueueArguments cfg queueName),
   .queueDeclare (xqName queueName) true xqArguments]

/-- The `queue.declare` of `ev`, if any, is a topology declaration of a name of `Q`. -/
def DeclaresIn (cfg : Config) (Q : String → Prop) (ev : Event) : Prop :=
  ∀ m, ev.declaration = some m → ∃ q, Q q ∧ m ∈ topologyDeclarations cfg q

theorem declaresIn_of_none {cfg : Config} {Q : String → Prop} {ev : Event} (h : ev.declaration = none) :
    DeclaresIn cfg Q ev :=
  fun _ hm => nomatch h.symm.trans hm

/-- Purges neither declare nor close. -/
theorem PurgeLog.plain {names : List String} {D : List Event} :
    ∀ {r : Option AMQPError}, PurgeLog names D r → ∀ ev ∈ D, ev.declaration = none ∧ ev.isClose = false
  | none, h, ev, hev => by
    have hm : ev.purgedQueue ∈ names.map some := h ▸ List.mem_map_of_mem _ hev
    obtain ⟨x, -, hx⟩ := List.mem_map.1 hm
    exact Event.plain_of_purgedQueue hx.symm
  | some _, ⟨_, x, _, D', c, _, hD', hD⟩, ev, hev => by
    subst hD
    rcases List.mem_append.1 hev with hev | hev
    · have hm : ev.purgedQueue ∈ _ := hD' ▸ List.mem_map_of_mem Event.purgedQueue hev
      obtain ⟨y, -, hy⟩ := List.mem_map.1 hm
      exact Event.plain_of_purgedQueue hy.symm
    · rw [List.mem_singleton.1 hev]; exact ⟨rfl, rfl⟩

/-! ## What every call keeps -/

/-- Events that neither declare nor close keep the run facts of `Continues` at once. -/
theorem plain_events {cfg : Config} {Q : String → Prop} {L : List Event} (w : Wire)
    (hL : ∀ ev ∈ L, ev.declaration = none ∧ ev.isClose = false) :
    (∀ ev ∈ L, DeclaresIn cfg Q ev ∧ ev.ShutIn w) ∧ L.Pairwise Event.StaysClosed :=
  ⟨fun ev h => ⟨declaresIn_of_none (hL ev h).1, .of_isClose (hL ev h).2⟩,
    List.pairwise_of_forall_mem_list fun a ha ev _ => Event.staysClosed_of_isClose (hL a ha).2 ev⟩

/-- `b'` continues `b` for a program whose queue names lie in `Q`. -/
structure Continues (Q : String → Prop) (b b' : Broker) : Prop where
  wf : b'.wire.Wf
  cfg : b'.cfg = b.cfg
  queues : ∀ q ∈ b'.queues, Q q
  ext : ∃ L, Extends b b' L ∧ (∀ ev ∈ L, DeclaresIn b.cfg Q ev ∧ ev.ShutIn b'.wire) ∧ L.Pairwise Event.StaysClosed

/-- An action that continues every well-formed state whose queues lie in `Q`. -/
def Sound (Q : String → Prop) {α : Type} (f : Broker → Broker × α) : Prop :=
  ∀ b : Broker, b.wire.Wf → (∀ q ∈ b.queues, Q q) → Continues Q b (f b).1

variable {Q : String → Prop} {e : Env} {b b' b'' : Broker}

theorem Continues.refl (hw : b.wire.Wf) (hq : ∀ q ∈ b.queues, Q q) : Continues Q b b :=
  ⟨hw, rfl, hq, [], Extends.refl b, nofun, .nil⟩

theorem Continues.trans (h₁ : Continues Q b b') (h₂ : Continues Q b' b'') : Continues Q b b'' := by
  obtain ⟨-, hc₁, -, L₁, hx₁, hL₁, hp₁⟩ := h₁
  obtain ⟨hw, hc₂, hq, L₂, hx₂, hL₂, hp₂⟩ := h₂
  refine ⟨hw, hc₂.trans hc₁, hq, L₁ ++ L₂, hx₁.trans hx₂, fun ev hev => ?_,
    List.pairwise_append.2 ⟨hp₁, hp₂, fun a ha ev hev => Event.staysClosed_of (hL₁ a ha).2 (hx₂.opened ev hev)⟩⟩
  rcases List.mem_append.1 hev with h | h
  exacts [⟨(hL₁ ev h).1, (hL₁ ev h).2.mono hx₂.chans hx₂.conns⟩, ⟨hc₁ ▸ (hL₂ ev h).1, (hL₂ ev h).2⟩]

/-- A continuation that neither declares nor closes, and keeps `cfg` and `queues`. -/
theorem Continues.quiet {L : List Event} (hx : Extends b b' L) (hw : b'.wire.Wf) (hc : b'.cfg = b.cfg)
    (hq' : b'.queues = b.queues) (hq : ∀ q ∈ b.queues, Q q)
    (hL : ∀ ev ∈ L, ev.declaration = none ∧ ev.isClose = false) : Continues Q b b' :=
  ⟨hw, hc, hq' ▸ hq, L, hx, plain_events _ hL⟩

theorem continues_onChannel (m : Method) (hw : b.wire.Wf) (hq : ∀ q ∈ b.queues, Q q)
    (hm : ∀ c r, DeclaresIn b.cfg Q (.call m c r)) : Continues Q b (b.onChannel e m).1 :=
  ⟨onChannel_wf hw, rfl, hq, _, Extends.onChannel hw e m, List.forall_mem_singleton.2 ⟨hm _ _, trivial⟩,
    List.pairwise_singleton _ _⟩

theorem Sound.andThen {f g : Act} (hf : Sound Q f) (hg : Sound Q g) : Sound Q (f.andThen g) := by
  intro b hw hq
  have h₁ := hf b hw hq
  unfold Act.andThen
  rcases hr : f b with ⟨b₁, _ | err⟩ <;> rw [hr] at h₁ <;> dsimp only
  · exact h₁.trans (hg b₁ h₁.wf h₁.queues)
  · exact h₁

/-- The channel deleter closes the thread's channel, and records it closed. -/
theorem continues_delChannel (hw : b.wire.Wf) (hq : ∀ q ∈ b.queues, Q q) : Continues Q b b.delChannel := by
  refine ⟨hw.delChannel, rfl, hq, _, Extends.delChannel, fun ev hev => ⟨declaresIn_of_none ?_, ?_⟩, ?_⟩ <;>
    cases hc : b.wire.channel <;> simp_all [Event.declaration, Event.ShutIn, Broker.delChannel, Wire.delChannel,
      Wire.closeChan]

/-- The connection deleter closes the connection, and records it closed. -/
theorem continues_delConnection (hw : b.wire.Wf) (hq : ∀ q ∈ b.queues, Q q) : Continues Q b b.delConnection := by
  refine ⟨hw.delConnection, rfl, hq, _, Extends.delConnection, fun ev hev => ⟨declaresIn_of_none ?_, ?_⟩, ?_⟩ <;>
    cases hc : b.wire.connection <;> simp_all [Event.declaration, Event.ShutIn, Broker.delConnection,
      Wire.delConnection, Wire.closeConn]

/-! ## Declarations -/

/-- One of `_declare_queue`, `_declare_dq_queue`, `_declare_xq_queue` for a name of `Q`. -/
theorem sound_declare (e : Env) {q : String} (hQ : Q q) (x : String) (a : Config → Options)
    (hx : ∀ cfg, Method.queueDeclare x true (a cfg) ∈ topologyDeclarations cfg q) :
    Sound Q fun b => b.onChannel e (.queueDeclare x true (a b.cfg)) := fun b hw hq =>
  continues_onChannel _ hw hq fun _ _ m hm => ⟨q, hQ, by cases hm; exact hx b.cfg⟩

theorem sound_declareTopology (e : Env) (q : String) (hQ : Q q) : Sound Q (declareTopology e q) :=
  Sound.andThen (sound_declare e hQ q (_buildQueueArguments · q) fun _ => by simp [topologyDeclarations])
    (Sound.andThen (sound_declare e hQ (dqName q) (_buildQueueArguments · q) fun _ => by simp [topologyDeclarations])
      (sound_declare e hQ (xqName q) (fun _ => xqArguments) fun _ => by simp [topologyDeclarations]))

theorem sound_declareEach (e : Env) : ∀ qs : List String, (∀ q ∈ qs, Q q) → Sound Q (declareEach e qs)
  | [], _ => fun _ hw hq => .refl hw hq
  | q :: qs, h => (sound_declareTopology e q (h q (List.mem_cons_self _ _))).andThen
      (sound_declareEach e qs fun q' h' => h q' (List.mem_cons_of_mem _ h'))

theorem sound_ensureDeclared (e : Env) : Sound Q (ensureDeclared e) := by
  intro b hw hq
  unfold ensureDeclared
  split
  · exact .refl hw hq
  · have h := sound_declareEach e b.queues hq b hw hq
    unfold _declareRabbitmqQueues
    rcases hr : declareEach e b.queues b with ⟨b₁, _ | err⟩ <;> rw [hr] at h <;> dsimp only
    · exact h.trans ⟨h.wf, rfl, h.queues, [], (Extends.refl b₁).congr rfl rfl rfl, nofun, .nil⟩
    · exact h

/-! ## `enqueue` and `consume` -/

theorem sound_publishOnce (e : Env) (m : Message) (d : Option Int) (rk : String) (props : Options) :
    Sound Q (publishOnce e m d rk props) := by
  intro b hw hq
  have h₁ : Continues Q b (b.emitBefore e (.enqueue m d)).1 :=
    .quiet (Extends.emitBefore e _) hw rfl rfl hq (by simp [Event.declaration, Event.isClose])
  unfold publishOnce
  rcases hr : b.emitBefore e (.enqueue m d) with ⟨b₁, _ | _⟩ <;> rw [hr] at h₁ <;> dsimp only
  · have h₂ := h₁.trans (continues_onChannel (e := e) (.basicPublish "" rk m props) h₁.wf h₁.queues
      fun _ _ => declaresIn_of_none rfl)
    rcases hr' : b₁.onChannel e (.basicPublish "" rk m props) with ⟨b₂, _ | err⟩ <;> rw [hr'] at h₂ <;> dsimp only
    · exact h₂.trans (.quiet (Extends.emitAfter _) h₂.wf rfl rfl h₂.queues (by simp [Event.declaration, Event.isClose]))
    · exact h₂
  · exact h₁

theorem sound_enqueueAttempt (e : Env) (m : Message) (d : Option Int) (rk : String) (props : Options) :
    Sound Q (enqueueAttempt e m d rk props) := by
  intro b hw hq
  have h₁ := sound_ensureDeclared (Q := Q) e b hw hq
  unfold enqueueAttempt
  rcases hr : ensureDeclared e b with ⟨b₁, _ | err⟩ <;> rw [hr] at h₁ <;> dsimp only
  · exact h₁.trans (sound_publishOnce e m d rk props b₁ h₁.wf h₁.queues)
  · exact h₁

theorem continues_discard (hw : b.wire.Wf) (hq : ∀ q ∈ b.queues, Q q) (err : AMQPError) :
    Continues Q b (b.discard err) := by
  cases err with
  | connection => exact continues_delConnection hw hq
  | channel => exact continues_delChannel hw hq

theorem sound_enqueueLoop (e : Env) (m : Message) (d : Option Int) (rk : String) (props : Options) (attempts : Nat) :
    Sound Q (enqueueLoop e m d rk props attempts) := by
  intro b hw hq
  induction attempts, b using enqueueLoop.induct e m d rk props with
  | case1 attempts b b₁ hr | case2 attempts b b₁ hr =>
    have h := sound_enqueueAttempt e m d rk props b hw hq
    rw [hr] at h
    rw [enqueueLoop, hr]
    exact h
  | case3 attempts b b₁ err hr hlt =>
    have h := sound_enqueueAttempt e m d rk props b hw hq
    rw [hr] at h
    rw [enqueueLoop, hr]
    simp only [hlt, if_true]
    exact h.trans (continues_discard h.wf h.queues err)
  | case4 attempts b b₁ err hr hlt ih =>
    have h := sound_enqueueAttempt e m d rk props b hw hq
    rw [hr] at h
    rw [enqueueLoop, hr]
    simp only [hlt, if_false]
    have h' := h.trans (continues_discard h.wf h.queues err)
    exact h'.trans (ih h'.wf h'.queues)

theorem sound_enqueue (e : Env) (m : Message) (delay : Option Int) (now : Int) :
    Sound Q fun b => b.enqueue e m delay now := by
  intro b hw hq
  dsimp only
  unfold enqueue
  cases getActor b.actors m.actorName with
  | none => exact .refl hw hq
  | some a => exact sound_enqueueLoop e _ _ _ _ 1 b hw hq

theorem sound_consumerInit (e : Env) (queueName : String) (prefetch timeout : Nat) :
    Sound Q (_RabbitmqConsumer.init e queueName prefetch timeout) := by
  intro b hw hq
  obtain ⟨hw₁, hcl, hal, hx₁, hq₁, -⟩ := newChannel_spec hw
  obtain ⟨hw₂, hal₂, hcl₂, hx₂, hq₂, -⟩ := invoke_spec hw₁ hal hcl e (.basicQos prefetch)
  have h₂ : Continues Q b (b.newChannel.1.invoke e b.newChannel.2 (.basicQos prefetch)).1 :=
    (Continues.quiet hx₁ hw₁ rfl hq₁ hq nofun).trans
      (.quiet hx₂ hw₂ rfl hq₂ (hq₁ ▸ hq) (by simp [Event.declaration, Event.isClose]))
  unfold _RabbitmqConsumer.init
  dsimp only
  rcases hr : b.newChannel.1.invoke e b.newChannel.2 (.basicQos prefetch) with ⟨b₂, _ | err⟩ <;>
    rw [hr] at h₂ hw₂ hal₂ hcl₂ <;> dsimp only
  · obtain ⟨hw₃, -, -, hx₃, hq₃, -⟩ := invoke_spec hw₂ hal₂ (hcl₂ rfl) e (.basicConsume queueName false)
    have h₃ := h₂.trans (.quiet hx₃ hw₃ rfl hq₃ h₂.queues (by simp [Event.declaration, Event.isClose]))
    rcases hr' : b₂.invoke e b.newChannel.2 (.basicConsume queueName false) with ⟨b₃, _ | err'⟩ <;>
      rw [hr'] at h₃ <;> exact h₃
  · exact h₂

theorem sound_consume (e : Env) (queueName : String) (prefetch timeout : Nat) :
    Sound Q (consume e queueName prefetch timeout) := by
  intro b hw hq
  have h₁ := sound_declareEach e b.queues hq b hw hq
  unfold consume _declareRabbitmqQueues
  rcases hr : declareEach e b.queues b with ⟨b₁, _ | err⟩ <;> rw [hr] at h₁ <;> dsimp only
  · exact h₁.trans (sound_consumerInit e queueName prefetch timeout b₁ h₁.wf h₁.queues)
  · exact h₁.trans (continues_discard h₁.wf h₁.queues err)

/-! ## `declare_queue`, `close` and the inspection calls -/

theorem continues_declareQueue (hw : b.wire.Wf) (hq : ∀ q ∈ b.queues, Q q) {q : String} (hQ : Q q) :
    Continues Q b (declareQueue e q b).1 := by
  rw [declareQueue_eq]
  split_ifs
  · exact .refl hw hq
  · exact .quiet (.quiet rfl rfl (List.Subset.refl _) (List.Subset.refl _) (by simp [Event.isCall])) hw rfl rfl hq
      (by simp [Event.declaration, Event.isClose])
  · refine ⟨hw, rfl, fun q' h => ?_, _, .quiet rfl rfl (List.Subset.refl _) (List.Subset.refl _)
      (by simp [declareEvents, Event.isCall]), plain_events _ fun ev h => ?_⟩
    · rcases List.mem_append.1 h with h | h
      exacts [hq q' h, List.mem_singleton.1 h ▸ hQ]
    · simp only [declareEvents, List.mem_cons, List.mem_singleton, List.not_mem_nil, or_false] at h
      rcases h with rfl | rfl | rfl <;> exact ⟨rfl, rfl⟩

theorem continues_close (hw : b.wire.Wf) (hq : ∀ q ∈ b.queues, Q q) : Continues Q b b.close := by
  obtain ⟨hw', -, -, L, hx, hL, hp⟩ := continues_delConnection (Q := Q) hw hq
  exact ⟨close_wire b ▸ hw', rfl, hq, L, hx.congr rfl rfl (close_wire b), close_wire b ▸ hL, hp⟩

theorem sound_purgeOnly {names : List String} {f : Act} (hf : PurgeOnly names f) : Sound Q f := fun b hw hq =>
  let ⟨hw', hc, hq', _, _, _, _, hx, hD⟩ := hf b hw
  .quiet hx hw' hc hq' hq hD.plain

/-- `get_queue_message_counts` declares the topology of its queue again. -/
theorem sound_getQueueMessageCounts (e : Env) (mc : Nat → Nat) (q : String) (hQ : Q q) :
    Sound Q (getQueueMessageCounts e mc q) := fun b hw hq => by
  rw [getQueueMessageCounts_eq]; exact sound_declareTopology e q hQ b hw hq

theorem sound_joinLoop (e : Env) (mc : Nat → Nat) (clock : Nat → ℚ) (q : String) (ms it : Int) (dl : Option ℚ)
    (hQ : Q q) : ∀ fuel k s, Sound Q (joinLoop e mc clock q ms it dl fuel k s)
  | 0, _, _ => fun _ hw hq => .refl hw hq
  | fuel + 1, k, s => fun b hw hq => by
    have h := sound_getQueueMessageCounts e mc q hQ b hw hq
    simp only [joinLoop]
    split
    · split
      · exact .refl hw hq
      · rcases hr : getQueueMessageCounts e mc q b with ⟨b', _ | ⟨x, y, z⟩⟩ <;> rw [hr] at h <;> dsimp only
        · exact h
        · split
          · exact h
          · exact h.trans (sound_joinLoop e mc clock q ms it dl hQ fuel (k + 1) _ b' h.wf h.queues)
    · exact .refl hw hq

/-! ## Runs -/

/-- The calls a program makes on the broker: those of `Op`, and the calls of `Inspect.lean`.
`join` carries the readings of `time.monotonic()` it gets. -/
inductive Call where
  | op (op : Op)
  | getQueueMessageCounts (queueName : String)
  | flush (queueName : String)
  | flushAll
  | join (queueName : String) (minSuccesses idleTime : Int) (timeout : Option Int) (clock : Nat → ℚ) (fuel : Nat)

/-- The name a call declares or adds to `queues`. -/
def Call.declaredName : Call → Option String
  | .op (.declareQueue q) => some q
  | .getQueueMessageCounts q => some q
  | .join q .. => some q
  | _ => none

/-- One call; `messageCount n` is the `message_count` of the reply to the `n`-th AMQP method.
An exception reaches the caller, who goes on. -/
def perform (e : Env) (messageCount : Nat → Nat) (b : Broker) : Call → Broker
  | .op op => step e b op
  | .getQueueMessageCounts q => (getQueueMessageCounts e messageCount q b).1
  | .flush q => (flush e q b).1
  | .flushAll => (flushAll e b).1
  | .join q ms it timeout clock fuel => (join e messageCount clock q ms it timeout fuel b).1

def run (e : Env) (messageCount : Nat → Nat) (b : Broker) (calls : List Call) : Broker :=
  calls.foldl (perform e messageCount) b

/-- **One call**, whatever it is. -/
theorem continues_perform (mc : Nat → Nat) (c : Call) (hw : b.wire.Wf) (hq : ∀ q ∈ b.queues, Q q)
    (hc : ∀ q ∈ c.declaredName, Q q) : Continues Q b (perform e mc b c) := by
  cases c with
  | op op =>
    cases op with
    | declareQueue q => exact continues_declareQueue hw hq (hc q rfl)
    | enqueue m d now => exact sound_enqueue e m d now b hw hq
    | consume q p t => exact sound_consume e q p t b hw hq
    | close => exact continues_close hw hq
  | getQueueMessageCounts q => exact sound_getQueueMessageCounts e mc q (hc q rfl) b hw hq
  | flush q => exact sound_purgeOnly (purgeOnly_purgeEach e _) b hw hq
  | flushAll => exact sound_purgeOnly (purgeOnly_flushEach e b.queues) b hw hq
  | join q ms it t clock fuel => exact sound_joinLoop e mc clock q ms it _ (hc q rfl) fuel 0 0 b hw hq

/-- **A whole run**, by induction on the calls. -/
theorem continues_run (mc : Nat → Nat) : ∀ (calls : List Call) (b : Broker), b.wire.Wf → (∀ q ∈ b.queues, Q q) →
    (∀ c ∈ calls, ∀ q ∈ c.declaredName, Q q) → Continues Q b (run e mc b calls)
  | [], _, hw, hq, _ => .refl hw hq
  | c :: calls, _, hw, hq, hc =>
    have h := continues_perform mc c hw hq (hc c (List.mem_cons_self _ _))
    h.trans (continues_run mc calls _ h.wf h.queues fun c' h' => hc c' (List.mem_cons_of_mem _ h'))

/-- A run from `__init__`: its log is all it did. -/
theorem continues_init (cfg : Config) (actors : List Actor) (mc : Nat → Nat) (calls : List Call)
    (hc : ∀ c ∈ calls, ∀ q ∈ c.declaredName, Q q) :
    (run e mc (Broker.init cfg actors) calls).wire.Wf ∧
      Extends (Broker.init cfg actors) (run e mc (Broker.init cfg actors) calls) (run e mc (Broker.init cfg actors) calls).log ∧
      (∀ ev ∈ (run e mc (Broker.init cfg actors) calls).log, DeclaresIn cfg Q ev) ∧
      (run e mc (Broker.init cfg actors) calls).log.Pairwise Event.StaysClosed := by
  obtain ⟨hw, -, -, L, hx, hL, hp⟩ := continues_run mc calls _ (Broker.init_wf cfg actors) nofun hc
  have hl : (run e mc (Broker.init cfg actors) calls).log = L := hx.log.trans (List.nil_append L)
  exact ⟨hw, hl ▸ hx, hl ▸ fun ev h => (hL ev h).1, hl ▸ hp⟩

theorem run_append (mc : Nat → Nat) (b : Broker) (pre : List Call) (c : Call) :
    run e mc b (pre ++ [c]) = perform e mc (run e mc b pre) c := by
  simp [run, List.foldl_append]

/-! ## What the `except` clauses discard -/

/-- What a call does with the channel or connection of a failed method, as its events `L` show:
an `enqueue` closes it at once after every failure (rabbitmq.py:256-262), and a `consume` after a
failed declaration (:143-148); what follows the declarations of a `consume` declares nothing. The
other calls let the exception through. -/
def Call.Discards : Call → List Event → Prop
  | .op (.enqueue ..), L => Discarded L
  | .op (.consume ..), L => ∃ D C, L = D ++ C ∧ Discarded D ∧ ∀ ev ∈ C, ev.declaration = none
  | _, _ => True

/-- `consume` closes what a failed declaration used, and its consumer declares nothing. -/
theorem consume_discards (e : Env) (queueName : String) (prefetch timeout : Nat) (hw : b.wire.Wf) :
    ∃ D C, (consume e queueName prefetch timeout b).1.log = b.log ++ (D ++ C) ∧ Discarded D ∧
      ∀ ev ∈ C, ev.declaration = none := by
  obtain ⟨hw₁, -, -, D, hx₁, hl₁⟩ := declOnly_declareEach e b.queues b hw
  unfold consume _declareRabbitmqQueues
  rcases hr : declareEach e b.queues b with ⟨b₁, _ | err⟩ <;> rw [hr] at hw₁ hx₁ hl₁ <;> dsimp only
  · obtain ⟨-, -, -, C, hx₂, -, hC⟩ := consumerInit_spec e queueName prefetch timeout hw₁
    refine ⟨D, C, by rw [hx₂.log, hx₁.log, List.append_assoc], Discarded.of_noFailure ?_, hC⟩
    exact List.countP_eq_zero.2 fun ev h => by simp [(Event.isDeclared_quiet (hl₁ ev h)).1]
  · obtain ⟨D', q, d, a, c, rfl, hD', hc⟩ := hl₁
    have ha : AttemptLog (D' ++ [Event.call (.queueDeclare q d a) c (some err)]) b₁ (some (.amqp err)) :=
      AttemptLog.declared_append hD' ⟨[], _, c, rfl, rfl, rfl, rfl, by simp [Paired, Event.isBeforeEnqueue,
        Event.isPublish], hc⟩
    obtain ⟨-, -, -, -, F, hF, -, -, -, -, hd, -⟩ := failedRound hw₁ hx₁ ha
    exact ⟨F, [], by rw [hF.log, List.append_nil], hd, nofun⟩

theorem perform_discards (mc : Nat → Nat) (c : Call) (hw : b.wire.Wf) :
    ∃ L, (perform e mc b c).log = b.log ++ L ∧ c.Discards L := by
  obtain ⟨-, -, -, L, hx, -⟩ := continues_perform (Q := fun _ => True) (e := e) mc c hw (fun _ _ => trivial)
    fun _ _ => trivial
  rcases c with ⟨_ | ⟨m, d, now⟩ | ⟨q, p, t⟩ | _⟩ | _ | _ | _ | _
  · exact ⟨L, hx.log, trivial⟩
  · exact enqueue_discarded e m d now hw
  · obtain ⟨D, C, hl, hd, hC⟩ := consume_discards e q p t hw
    exact ⟨D ++ C, hl, D, C, rfl, hd, hC⟩
  all_goals exact ⟨L, hx.log, trivial⟩

/-- **Every run is safe**: along every sequence of calls from a broker as `__init__` leaves
it, under every outcome of the AMQP methods and the hooks, the wire is well formed, no AMQP method
runs on a channel or a connection after a deleter closed it, and every `enqueue` closes the
channel or connection of each of its failed methods right after the failure, and every `consume`
that of a failed declaration. -/
theorem run_safe (e : Env) (mc : Nat → Nat) (cfg : Config) (actors : List Actor) (calls : List Call) :
    (run e mc (Broker.init cfg actors) calls).wire.Wf ∧
      (run e mc (Broker.init cfg actors) calls).log.Pairwise Event.StaysClosed ∧
      ∀ pre c post, calls = pre ++ c :: post →
        ∃ L, (run e mc (Broker.init cfg actors) (pre ++ [c])).log = (run e mc (Broker.init cfg actors) pre).log ++ L ∧
          c.Discards L := by
  obtain ⟨hw, -, -, hp⟩ := continues_init (Q := fun _ => True) (e := e) cfg actors mc calls fun _ _ _ _ => trivial
  refine ⟨hw, hp, fun pre c _ _ => ?_⟩
  rw [run_append]
  exact perform_discards mc c (continues_init (Q := fun _ => True) cfg actors mc pre fun _ _ _ _ => trivial).1

/-! ## The declarations of a server queue agree -/

/-- No two names of `Q` share a server queue of their topologies. -/
def TopologyDisjoint (Q : String → Prop) : Prop :=
  ∀ q q', Q q → Q q' → ∀ x ∈ topology q, x ∈ topology q' → q = q'

theorem ne_append_self {q s : String} (hs : s ≠ "") : q ≠ q ++ s := fun h =>
  hs (String.ext (List.append_right_eq_self.1 (congrArg String.data h).symm))

theorem dqName_ne_xqName (q : String) : dqName q ≠ xqName q := fun h =>
  absurd (List.append_cancel_left (congrArg String.data h)) (by decide)

theorem mem_topology_of_declaration {cfg : Config} {q x : String} {d : Bool} {a : Options}
    (h : .queueDeclare x d a ∈ topologyDeclarations cfg q) : x ∈ topology q := by
  simp only [topologyDeclarations, List.mem_cons, Method.queueDeclare.injEq, List.not_mem_nil, or_false] at h
  rcases h with ⟨rfl, -⟩ | ⟨rfl, -⟩ | ⟨rfl, -⟩ <;> simp [topology]

/-- Within one topology a queue name fixes the declaration. -/
theorem topologyDeclarations_agree {cfg : Config} {q x : String} {d d' : Bool} {a a' : Options}
    (h : .queueDeclare x d a ∈ topologyDeclarations cfg q) (h' : .queueDeclare x d' a' ∈ topologyDeclarations cfg q) :
    d = d' ∧ a = a' := by
  have hdq : q ≠ dqName q := ne_append_self (by decide)
  have hxq : q ≠ xqName q := ne_append_self (by decide)
  simp only [topologyDeclarations, List.mem_cons, Method.queueDeclare.injEq, List.not_mem_nil, or_false] at h h'
  rcases h with ⟨h₁, rfl, rfl⟩ | ⟨h₁, rfl, rfl⟩ | ⟨h₁, rfl, rfl⟩ <;>
    rcases h' with ⟨h₂, rfl, rfl⟩ | ⟨h₂, rfl, rfl⟩ | ⟨h₂, rfl, rfl⟩ <;>
    first
    | exact ⟨rfl, rfl⟩
    | exact absurd (h₁.symm.trans h₂) hdq | exact absurd (h₁.symm.trans h₂) hdq.symm
    | exact absurd (h₁.symm.trans h₂) hxq | exact absurd (h₁.symm.trans h₂) hxq.symm
    | exact absurd (h₁.symm.trans h₂) (dqName_ne_xqName q)
    | exact absurd (h₁.symm.trans h₂) (dqName_ne_xqName q).symm

/-- **The declarations of a server queue agree**: along every run from `__init__` whose
`declare_queue`, `get_queue_message_counts` and `join` calls name only queues of `Q`, every
`queue.declare` the broker sends is one of `_declare_queue(q)`, `_declare_dq_queue(q)` and
`_declare_xq_queue(q)` for a name `q` of `Q`; and when no two names of `Q` share a server queue of
their topologies, any two `queue.declare`s for one server queue (completed or not) carry the same
`durable` flag and the same arguments. -/
theorem run_declarations_agree (e : Env) (mc : Nat → Nat) (cfg : Config) (actors : List Actor) (calls : List Call)
    (Q : String → Prop) (hQ : TopologyDisjoint Q) (hc : ∀ c ∈ calls, ∀ q ∈ c.declaredName, Q q) :
    (∀ ev ∈ (run e mc (Broker.init cfg actors) calls).log, DeclaresIn cfg Q ev) ∧
      ∀ ev ∈ (run e mc (Broker.init cfg actors) calls).log, ∀ ev' ∈ (run e mc (Broker.init cfg actors) calls).log,
        ∀ x d a d' a', ev.declaration = some (.queueDeclare x d a) → ev'.declaration = some (.queueDeclare x d' a') →
          d = d' ∧ a = a' := by
  obtain ⟨-, -, hD, -⟩ := continues_init (e := e) cfg actors mc calls hc
  refine ⟨hD, fun ev hev ev' hev' x d a d' a' h h' => ?_⟩
  obtain ⟨q, hq, hm⟩ := hD ev hev _ h
  obtain ⟨q', hq', hm'⟩ := hD ev' hev' _ h'
  obtain rfl := hQ q q' hq hq' x (mem_topology_of_declaration hm) (mem_topology_of_declaration hm')
  exact topologyDeclarations_agree hm hm'

/-- A program on two queues: it declares both, enqueues to `default`, consumes from `other`, and
reads the counts of both. -/
def twoQueueCalls : List Call :=
  [.op (.declareQueue "default"), .op (.declareQueue "other"), .op (.enqueue addMessage none 0),
   .op (.consume "other" 1 5000), .getQueueMessageCounts "default", .getQueueMessageCounts "other"]

theorem topologyDisjoint_twoQueues : TopologyDisjoint (· ∈ ["default", "other"]) := by
  intro q q' hq hq' x hx hx'
  simp only [List.mem_cons, List.mem_singleton, List.not_mem_nil, or_false] at hq hq'
  rcases hq with rfl | rfl <;> rcases hq' with rfl | rfl <;> first | rfl | exact absurd hx' (by
    simp only [topology, dqName, xqName, List.mem_cons, List.mem_singleton, List.not_mem_nil, or_false] at hx ⊢
    rcases hx with rfl | rfl | rfl <;> decide)

theorem run_declarations_agree_twoQueues :
    TopologyDisjoint (· ∈ ["default", "other"]) ∧ (∀ c ∈ twoQueueCalls, ∀ q ∈ c.declaredName, q ∈ ["default", "other"]) ∧
      (∀ ev ∈ (run Env.ok (fun _ => 0) (Broker.init Config.defaults [addActor]) twoQueueCalls).log,
        DeclaresIn Config.defaults (· ∈ ["default", "other"]) ev) ∧
      ∀ ev ∈ (run Env.ok (fun _ => 0) (Broker.init Config.defaults [addActor]) twoQueueCalls).log,
        ∀ ev' ∈ (run Env.ok (fun _ => 0) (Broker.init Config.defaults [addActor]) twoQueueCalls).log,
          ∀ x d a d' a', ev.declaration = some (.queueDeclare x d a) →
            ev'.declaration = some (.queueDeclare x d' a') → d = d' ∧ a = a' :=
  have hc : ∀ c ∈ twoQueueCalls, ∀ q ∈ c.declaredName, q ∈ ["default", "other"] := by
    simp [twoQueueCalls, Call.declaredName]
  ⟨topologyDisjoint_twoQueues, hc, run_declarations_agree Env.ok (fun _ => 0) Config.defaults [addActor] twoQueueCalls _
    topologyDisjoint_twoQueues hc⟩

/-- The condition of `run_declarations_agree` is needed: reading the counts of `a` and then of
`a.DQ` declares `a.DQ` first as the delay queue of `a`, dead-lettering to `a.XQ`, then as a
queue of its own, dead-lettering to `a.DQ.XQ`. -/
example : Event.call (.queueDeclare "a.DQ" true (_buildQueueArguments Config.defaults "a")) ⟨1, 0⟩ none ∈
      (run Env.ok (fun _ => 0) (Broker.init Config.defaults [])
        [.getQueueMessageCounts "a", .getQueueMessageCounts "a.DQ"]).log ∧
    Event.call (.queueDeclare "a.DQ" true (_buildQueueArguments Config.defaults "a.DQ")) ⟨1, 0⟩ none ∈
      (run Env.ok (fun _ => 0) (Broker.init Config.defaults [])
        [.getQueueMessageCounts "a", .getQueueMessageCounts "a.DQ"]).log ∧
    _buildQueueArguments Config.defaults "a" ≠ _buildQueueArguments Config.defaults "a.DQ" := by
  decide

end Broker

end Remoulade
