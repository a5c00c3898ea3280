import Remoulade.Broker.Topology
import Remoulade.Broker.Join
/-!
# Counting, purging and joining queues (rabbitmq.py:273-348)

`get_queue_message_counts` reads a queue's depth the only way AMQP offers: it declares the queue,
its delay queue and its dead-letter queue again and takes the `message_count` of each reply.
`flush` purges the three queues of one logical queue and `flush_all` those of every queue of
`queues` (`flushAll_spec`); none of them catches an AMQP error. `join` samples the counts until
the main and delay queues read empty `min_successes` times in a row, and `join_refines` shows that
it ends as `Join.join` does on the counts it read, so the theorems of `Join.lean` are about it.

| here | there |
| --- | --- |
| `getDeclaredQueues` | `get_declared_queues` (:273-280) |
| `getQueueMessageCounts` | `get_queue_message_counts` (:282-300) |
| `purgeEach`, `flush`, `flushAll` | `flush` (:302-309), `flush_all` (:311-315) |
| `join`, `joinLoop` | `join` (:317-348) on the broker |
| `samples` | the counts those calls read, as a `Join.JoinEnv` |
-/
namespace Remoulade

namespace Event

/-- The queue a completed `queue.purge` emptied. -/
def purgedQueue : Event → Option String
  | call (.queuePurge q) _ none => some q
  | _ => none

end Event

namespace Broker

/-! ## The calls -/

/-- `get_declared_queues` (rabbitmq.py:273-280): a copy of `queues`. -/
def getDeclaredQueues (b : Broker) : List String := b.queues

/-- `get_queue_message_counts` (rabbitmq.py:282-300); `messageCount n` is the
`message_count` of the reply to the `n`-th AMQP method. An exception of a declaration
reaches the caller. -/
def getQueueMessageCounts (e : Env) (messageCount : Nat → Nat) (queueName : String) (b : Broker) :
    Broker × Except AMQPError (Nat × Nat × Nat) :=
  match _declareQueue e queueName b with
  | (b₁, some err) => (b₁, .error err)
  | (b₁, none) =>
    match _declareDqQueue e queueName b₁ with
    | (b₂, some err) => (b₂, .error err)
    | (b₂, none) =>
      match _declareXqQueue e queueName b₂ with
      | (b₃, some err) => (b₃, .error err)
      | (b₃, none) => (b₃, .ok (messageCount b.calls, messageCount b₁.calls, messageCount b₂.calls))

/-- `for name in names: self.channel.queue.purge(name)`: an exception ends the loop. -/
def purgeEach (e : Env) : List String → Act
  | [] => fun b => (b, none)
  | name :: names => Act.andThen (fun b => b.onChannel e (.queuePurge name)) (purgeEach e names)

/-- `flush` (rabbitmq.py:302-309). -/
def flush (e : Env) (queueName : String) : Act :=
  purgeEach e [queueName, dqName queueName, xqName queueName]

/-- `for queue_name in self.queues: self.flush(queue_name)`. -/
def flushEach (e : Env) : List String → Act
  | [] => fun b => (b, none)
  | q :: qs => Act.andThen (flush e q) (flushEach e qs)

/-- `flush_all` (rabbitmq.py:311-315). -/
def flushAll (e : Env) (b : Broker) : Broker × Option AMQPError := flushEach e b.queues b

/-- The `while successes < min_successes` loop of `join` (rabbitmq.py:338-348) on the broker;
`clock` is as in `Join.JoinEnv`. The outcome and the number of samples taken, an AMQP error
of a sample, or `none` when `fuel` runs out. -/
def joinLoop (e : Env) (messageCount : Nat → Nat) (clock : Nat → ℚ) (queueName : String)
    (minSuccesses idleTime : Int) (deadline : Option ℚ) :
    Nat → Nat → Int → Broker → Broker × Option (Except AMQPError (Join.Outcome × Nat))
  | 0, _, _, b => (b, none)
  | fuel + 1, k, successes, b =>
    if successes < minSuccesses then
      if Join.truthy deadline && decide (deadline.getD 0 ≤ clock (k + 1)) then
        (b, some (.ok (.queueJoinTimeout queueName, k)))
      else
        match getQueueMessageCounts e messageCount queueName b with
        | (b, .error err) => (b, some (.error err))
        | (b, .ok (main, delay, _)) =>
          let successes := if main + delay = 0 then successes + 1 else 0
          if idleTime < 0 then (b, some (.ok (.sleepFailed, k + 1)))
          else joinLoop e messageCount clock queueName minSuccesses idleTime deadline fuel (k + 1) successes b
    else (b, some (.ok (.returned, k)))

/-- `join(queue_name, min_successes, idle_time, timeout=timeout)` (rabbitmq.py:317-348). -/
def join (e : Env) (messageCount : Nat → Nat) (clock : Nat → ℚ) (queueName : String)
    (minSuccesses idleTime : Int) (timeout : Option Int) (fuel : Nat) (b : Broker) :
    Broker × Option (Except AMQPError (Join.Outcome × Nat)) :=
  joinLoop e messageCount clock queueName minSuccesses idleTime (Join.deadlineOf (clock 0) timeout) fuel 0 0 b

/-- The samples of a `join` whose `get_queue_message_counts` calls all complete: the `k`-th
reads the replies to the methods `3k`, `3k + 1` and `3k + 2` after the first, `calls`. -/
def samples (messageCount : Nat → Nat) (clock : Nat → ℚ) (calls : Nat) : Join.JoinEnv :=
  ⟨clock, fun k => (messageCount (calls + 3 * k), messageCount (calls + 3 * k + 1), messageCount (calls + 3 * k + 2))⟩

/-! ## `get_queue_message_counts` is the declaration of the topology -/

variable {e : Env} {b : Broker} {mc : Nat → Nat} {q : String}

@[simp] theorem _declareQueue_calls : (_declareQueue e q b).1.calls = b.calls + 1 := rfl
@[simp] theorem _declareDqQueue_calls : (_declareDqQueue e q b).1.calls = b.calls + 1 := rfl
@[simp] theorem _declareXqQueue_calls : (_declareXqQueue e q b).1.calls = b.calls + 1 := rfl
@[simp] theorem _declareQueue_snd : (_declareQueue e q b).2 = e.amqp b.calls := rfl
@[simp] theorem _declareDqQueue_snd : (_declareDqQueue e q b).2 = e.amqp b.calls := rfl
@[simp] theorem _declareXqQueue_snd : (_declareXqQueue e q b).2 = e.amqp b.calls := rfl

/-- The broker `get_queue_message_counts` leaves is the one `_declare_rabbitmq_queues`'s loop
body leaves for the queue, and it fails exactly when that declaration does. -/
theorem getQueueMessageCounts_eq (e : Env) (mc : Nat → Nat) (q : String) (b : Broker) :
    getQueueMessageCounts e mc q b = ((declareTopology e q b).1,
      match (declareTopology e q b).2 with
      | some err => .error err
      | none => .ok (mc b.calls, mc (b.calls + 1), mc (b.calls + 2))) := by
  unfold getQueueMessageCounts declareTopology Act.andThen
  rcases h₁ : _declareQueue e q b with ⟨b₁, _ | err⟩ <;> dsimp only
  have c₁ : b₁.calls = b.calls + 1 := (congrArg (·.1.calls) h₁).symm.trans _declareQueue_calls
  rcases h₂ : _declareDqQueue e q b₁ with ⟨b₂, _ | err⟩ <;> dsimp only
  have c₂ : b₂.calls = b.calls + 2 := (congrArg (·.1.calls) h₂).symm.trans (by rw [_declareDqQueue_calls, c₁])
  rcases _declareXqQueue e q b₂ with ⟨b₃, _ | err⟩ <;> simp [c₁, c₂]

/-- A sample whose three declarations complete reads the replies to them and makes no other
AMQP call. -/
theorem getQueueMessageCounts_ok {t : Nat × Nat × Nat} (h : (getQueueMessageCounts e mc q b).2 = .ok t) :
    t = (mc b.calls, mc (b.calls + 1), mc (b.calls + 2)) ∧ (getQueueMessageCounts e mc q b).1.calls = b.calls + 3 := by
  unfold getQueueMessageCounts at h ⊢
  rcases h₁ : _declareQueue e q b with ⟨b₁, _ | err⟩ <;> rw [h₁] at h <;> dsimp only at h ⊢
  · have c₁ : b₁.calls = b.calls + 1 := (congrArg (·.1.calls) h₁).symm.trans _declareQueue_calls
    rcases h₂ : _declareDqQueue e q b₁ with ⟨b₂, _ | err⟩ <;> rw [h₂] at h <;> dsimp only at h ⊢
    · have c₂ : b₂.calls = b.calls + 2 := (congrArg (·.1.calls) h₂).symm.trans (by rw [_declareDqQueue_calls, c₁])
      rcases h₃ : _declareXqQueue e q b₂ with ⟨b₃, _ | err⟩ <;> rw [h₃] at h <;> dsimp only at h ⊢
      · cases h
        exact ⟨by rw [c₁, c₂], (congrArg (·.1.calls) h₃).symm.trans (by rw [_declareXqQueue_calls, c₂])⟩
      · cases h
    · cases h
  · cases h

/-- When its three declarations complete, a sample reads their replies. -/
theorem getQueueMessageCounts_of_ok (h : ∀ n, b.calls ≤ n → n < b.calls + 3 → e.amqp n = none) :
    (getQueueMessageCounts e mc q b).2 = .ok (mc b.calls, mc (b.calls + 1), mc (b.calls + 2)) := by
  unfold getQueueMessageCounts
  rcases hr₁ : _declareQueue e q b with ⟨b₁, r₁⟩
  have c₁ : b₁.calls = b.calls + 1 := (congrArg (·.1.calls) hr₁).symm.trans _declareQueue_calls
  obtain rfl : r₁ = none := (congrArg Prod.snd hr₁).symm.trans (h b.calls le_rfl (by omega))
  dsimp only
  rcases hr₂ : _declareDqQueue e q b₁ with ⟨b₂, r₂⟩
  have c₂ : b₂.calls = b.calls + 2 := (congrArg (·.1.calls) hr₂).symm.trans (by rw [_declareDqQueue_calls, c₁])
  obtain rfl : r₂ = none := (congrArg Prod.snd hr₂).symm.trans (by rw [_declareDqQueue_snd, c₁]; exact h _ (by omega) (by omega))
  dsimp only
  rcases hr₃ : _declareXqQueue e q b₂ with ⟨b₃, r₃⟩
  obtain rfl : r₃ = none := (congrArg Prod.snd hr₃).symm.trans (by rw [_declareXqQueue_snd, c₂]; exact h _ (by omega) (by omega))
  simp [c₁, c₂]

/-! ## `flush` and `flush_all` purge and do nothing else -/

/-- What a run of purges over `names` logs, with outcome `r`: a completed `queue.purge` of
each name in order, or of the names before some `x` and then a purge of `x` that failed. -/
def PurgeLog (names : List String) (D : List Event) : Option AMQPError → Prop
  | none => D.map Event.purgedQueue = names.map some
  | some err => ∃ pre x rest D' c, names = pre ++ x :: rest ∧ D'.map Event.purgedQueue = pre.map some ∧
      D = D' ++ [Event.call (.queuePurge x) c (some err)]

/-- An action that runs purges of `names` only: it keeps `Wf`, the configuration, the queue
sets and the server, and logs a `PurgeLog`. -/
def PurgeOnly (names : List String) (f : Act) : Prop :=
  ∀ b : Broker, b.wire.Wf → (f b).1.wire.Wf ∧ (f b).1.cfg = b.cfg ∧ (f b).1.queues = b.queues ∧
    (f b).1.delayQueues = b.delayQueues ∧ (f b).1.queuesDeclared = b.queuesDeclared ∧
    (f b).1.server = b.server ∧ ∃ D, Extends b (f b).1 D ∧ PurgeLog names D (f b).2

theorem PurgeLog.append {n₁ n₂ : List String} {D₁ D₂ : List Event} {r : Option AMQPError}
    (h₁ : PurgeLog n₁ D₁ none) (h₂ : PurgeLog n₂ D₂ r) : PurgeLog (n₁ ++ n₂) (D₁ ++ D₂) r := by
  cases r with
  | none => exact (List.map_append _ _ _).trans (by rw [h₁, show D₂.map _ = _ from h₂, List.map_append])
  | some err =>
    obtain ⟨pre, x, rest, D', c, rfl, hD', rfl⟩ := h₂
    exact ⟨n₁ ++ pre, x, rest, D₁ ++ D', c, by simp, by rw [List.map_append, List.map_append, h₁, hD'], by simp⟩

theorem PurgeLog.extend {n₁ : List String} (n₂ : List String) {D : List Event} {err : AMQPError}
    (h : PurgeLog n₁ D (some err)) : PurgeLog (n₁ ++ n₂) D (some err) := by
  obtain ⟨pre, x, rest, D', c, rfl, hD', rfl⟩ := h
  exact ⟨pre, x, rest ++ n₂, D', c, by simp, hD', rfl⟩

theorem purgeOnly_purge (e : Env) (q : String) : PurgeOnly [q] fun b => b.onChannel e (.queuePurge q) := by
  intro b hw
  refine ⟨onChannel_wf hw, rfl, rfl, rfl, rfl, rfl, _, Extends.onChannel hw e _, ?_⟩
  simp only [onChannel_snd]
  cases e.amqp b.calls with
  | none => rfl
  | some err => exact ⟨[], q, [], [], _, rfl, rfl, rfl⟩

theorem purgeOnly_pure : PurgeOnly [] fun b => (b, none) :=
  fun b hw => ⟨hw, rfl, rfl, rfl, rfl, rfl, [], Extends.refl b, rfl⟩

theorem PurgeOnly.andThen {n₁ n₂ : List String} {f g : Act} (hf : PurgeOnly n₁ f) (hg : PurgeOnly n₂ g) :
    PurgeOnly (n₁ ++ n₂) (f.andThen g) := by
  intro b hw
  obtain ⟨hw₁, hc₁, hq₁, hdq₁, hd₁, hs₁, D₁, hx₁, hl₁⟩ := hf b hw
  unfold Act.andThen
  rcases h₁ : f b with ⟨b₁, _ | err⟩ <;> rw [h₁] at hw₁ hc₁ hq₁ hdq₁ hd₁ hs₁ hx₁ hl₁
  · obtain ⟨hw₂, hc₂, hq₂, hdq₂, hd₂, hs₂, D₂, hx₂, hl₂⟩ := hg b₁ hw₁
    exact ⟨hw₂, hc₂.trans hc₁, hq₂.trans hq₁, hdq₂.trans hdq₁, hd₂.trans hd₁, hs₂.trans hs₁, D₁ ++ D₂,
      hx₁.trans hx₂, hl₁.append hl₂⟩
  · exact ⟨hw₁, hc₁, hq₁, hdq₁, hd₁, hs₁, D₁, hx₁, hl₁.extend n₂⟩

theorem purgeOnly_purgeEach (e : Env) : ∀ names, PurgeOnly names (purgeEach e names)
  | [] => purgeOnly_pure
  | q :: names => (purgeOnly_purge e q).andThen (purgeOnly_purgeEach e names)

theorem purgeOnly_flushEach (e : Env) : ∀ qs, PurgeOnly (qs.flatMap topology) (flushEach e qs)
  | [] => purgeOnly_pure
  | q :: qs => (purgeOnly_purgeEach e (topology q)).andThen (purgeOnly_flushEach e qs)

/-- **`flush_all` purges, in order, and does nothing else**: from a well-formed wire it runs
`queue.purge` on the queue, delay queue and dead-letter queue of every queue of `queues`, in
the order of `queues`, up to the first purge that fails; it leaves the configuration, the
queue sets and the server as they were, keeps the wire well-formed, and (`Extends`) runs no method on a
channel or connection it saw fail. -/
theorem flushAll_spec (e : Env) (b : Broker) (hw : b.wire.Wf) :
    (flushAll e b).1.wire.Wf ∧ (flushAll e b).1.cfg = b.cfg ∧ (flushAll e b).1.queues = b.queues ∧
      (flushAll e b).1.delayQueues = b.delayQueues ∧ (flushAll e b).1.queuesDeclared = b.queuesDeclared ∧
      (flushAll e b).1.server = b.server ∧
      ∃ D, Extends b (flushAll e b).1 D ∧ PurgeLog (b.queues.flatMap topology) D (flushAll e b).2 :=
  purgeOnly_flushEach e b.queues b hw

/-- A broker with `default` declared. -/
def withDefault : Broker := { Broker.init Config.defaults [] with queues := ["default"] }

theorem flushAll_spec_withDefault :
    withDefault.wire.Wf ∧ ((flushAll Env.ok withDefault).1.wire.Wf ∧
      (flushAll Env.ok withDefault).1.cfg = withDefault.cfg ∧
      (flushAll Env.ok withDefault).1.queues = withDefault.queues ∧
      (flushAll Env.ok withDefault).1.delayQueues = withDefault.delayQueues ∧
      (flushAll Env.ok withDefault).1.queuesDeclared = withDefault.queuesDeclared ∧
      (flushAll Env.ok withDefault).1.server = withDefault.server ∧
      ∃ D, Extends withDefault (flushAll Env.ok withDefault).1 D ∧
        PurgeLog (withDefault.queues.flatMap topology) D (flushAll Env.ok withDefault).2) :=
  ⟨Broker.init_wf Config.defaults [], flushAll_spec Env.ok withDefault (Broker.init_wf Config.defaults [])⟩

/-! ## `join` on the broker refines `Join.join` -/

theorem expired_samples (clock : Nat → ℚ) (c : Nat) (dl : Option ℚ) (k : Nat) :
    Join.expired (samples mc clock c) dl k = (Join.truthy dl && decide (dl.getD 0 ≤ clock (k + 1))) := rfl

theorem empty_samples (clock : Nat → ℚ) (c k : Nat) :
    (samples mc clock c).empty k = decide (mc (c + 3 * k) + mc (c + 3 * k + 1) = 0) := rfl

/-- **The loop, from iteration `k`**: a run of the broker's loop that ends without an AMQP
error ends as the abstract loop does on its samples; when no method fails, the two give the
same result. -/
theorem joinLoop_refines (e : Env) (mc : Nat → Nat) (clock : Nat → ℚ) (q : String) (ms it : Int)
    (dl : Option ℚ) (c : Nat) :
    ∀ fuel k s b, b.calls = c + 3 * k →
      (∀ r, (joinLoop e mc clock q ms it dl fuel k s b).2 = some (.ok r) →
        Join.joinLoop (samples mc clock c) q ms it dl fuel k s = some r) ∧
      ((∀ n, b.calls ≤ n → e.amqp n = none) →
        (joinLoop e mc clock q ms it dl fuel k s b).2 = (Join.joinLoop (samples mc clock c) q ms it dl fuel k s).map .ok)
  | 0, _, _, _, _ => ⟨fun _ h => (nomatch h), fun _ => rfl⟩
  | fuel + 1, k, s, b, hc => by
    simp only [joinLoop, Join.joinLoop, expired_samples]
    split
    · split
      · exact ⟨fun r h => by cases h; rfl, fun _ => rfl⟩
      · rcases hg : getQueueMessageCounts e mc q b with ⟨b', _ | ⟨x, y, z⟩⟩ <;> dsimp only
        · exact ⟨fun r h => (nomatch h), fun hok =>
            nomatch (congrArg Prod.snd hg).symm.trans (getQueueMessageCounts_of_ok fun n h₁ _ => hok n h₁)⟩
        · obtain ⟨ht, hc'⟩ := getQueueMessageCounts_ok (congrArg Prod.snd hg).symm.symm
          have hb' : b'.calls = b.calls + 3 := (congrArg (·.1.calls) hg).symm.trans hc'
          cases ht
          simp only [empty_samples, ← hc, decide_eq_true_eq]
          split
          · exact ⟨fun r h => by cases h; rfl, fun _ => rfl⟩
          · obtain ⟨ih₁, ih₂⟩ := joinLoop_refines e mc clock q ms it dl c fuel (k + 1) _ b' (by omega)
            exact ⟨ih₁, fun hok => ih₂ fun n hn => hok n (by omega)⟩
    · exact ⟨fun r h => by cases h; rfl, fun _ => rfl⟩

/-- **`join` on the broker refines `Join.join`**: whatever the AMQP methods and the clock do,
a `join` that ends without an AMQP error (returning, raising `QueueJoinTimeout`, or failing to
sleep) ends as `Join.join` does on the counts its `get_queue_message_counts` calls read; and
when no method fails, its result is `Join.join`'s. So every theorem of `Join.lean` is a
theorem about the broker's `join`. -/
theorem join_refines (e : Env) (mc : Nat → Nat) (clock : Nat → ℚ) (q : String) (ms it : Int)
    (timeout : Option Int) (fuel : Nat) (b : Broker) :
    (∀ r, (join e mc clock q ms it timeout fuel b).2 = some (.ok r) →
      Join.join (samples mc clock b.calls) q ms it timeout fuel = some r) ∧
    ((∀ n, b.calls ≤ n → e.amqp n = none) →
      (join e mc clock q ms it timeout fuel b).2 = (Join.join (samples mc clock b.calls) q ms it timeout fuel).map .ok) :=
  joinLoop_refines e mc clock q ms it _ b.calls fuel 0 0 b rfl

/-- With every method completing, `join` on the broker is `Join.join` on its samples. -/
theorem join_refines_ok :
    (∀ n, (Broker.init Config.defaults []).calls ≤ n → Env.ok.amqp n = none) ∧
      (join Env.ok (fun _ => 0) (fun _ => 0) "default" 10 100 none 20 (Broker.init Config.defaults [])).2 =
        (Join.join (samples (fun _ => 0) (fun _ => 0) 0) "default" 10 100 none 20).map .ok :=
  ⟨fun _ _ => rfl, (join_refines Env.ok (fun _ => 0) (fun _ => 0) "default" 10 100 none 20
    (Broker.init Config.defaults [])).2 fun _ _ => rfl⟩

end Broker

end Remoulade
