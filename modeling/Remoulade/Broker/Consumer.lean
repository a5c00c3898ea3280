import Mathlib.Algebra.Order.Field.Rat
import Mathlib.Tactic.NormNum
import Remoulade.Binary64
import Remoulade.Broker.Topology
/-!
# `_RabbitmqConsumer` (rabbitmq.py:350-415)

`__next__` sets its deadline once (`time.monotonic() + timeout / 1000`, in binary64), pulls from
the channel's inbound buffer until a delivery comes or the clock reaches the deadline, and wraps
the delivery as `_RabbitmqMessage`, whose `__init__` runs `Message.decode` (a parameter: it is not
in the source tree). The world numbers every clock reading, arrival and pull across calls
(`NextEnv`), and the loop is given fuel. `next_hands_back_in_order`: the messages handed back are
the pulled deliveries that decode, in order; a body that does not decode is pulled and lost
(`next_drops_undecodable`). `ack` and `nack` turn AMQP errors into `ConnectionClosed` and log any
other, which `close` lets through (`close_raises_what_settle_logs`).

| here | there |
| --- | --- |
| `Inbound.pull` | `next(self.channel.build_inbound_messages(auto_decode=False, break_on_empty=True))` |
| `pollLoop` | `while message is None and time.monotonic() < deadline` (:388-392) |
| `_RabbitmqConsumer.__next__`, `nextRun` | `__next__` (:383-396), and successive `next(consumer)` calls |
| `_RabbitmqConsumer.ack`, `.nack`, `.close` | `ack`, `nack`, `close` (:362-376, :398-402) |
| `_RabbitmqMessage.init`, `.ack`, `.nack` | `_RabbitmqMessage` (:405-415) |
-/
namespace Remoulade.Broker

/-- A delivery in the consumer channel's inbound buffer: the body and the delivery tag of
an `amqpstorm` message. -/
structure Delivery where
  body : String
  deliveryTag : Nat
deriving DecidableEq, Repr

/-- What `__next__` reads from the world, numbered across calls: `clock n` is the `n`-th
reading of `time.monotonic()`, `arrivals n` the deliveries that reach the inbound buffer just
before the `n`-th pull, and `amqp n` whether that pull raises. -/
structure NextEnv where
  clock : Nat → ℚ
  arrivals : Nat → List Delivery
  amqp : Nat → Option AMQPError

/-- The consumer channel's side of the world: its inbound buffer, the clock readings and pulls
made so far, and every delivery pulled off the buffer, in order. -/
structure Inbound where
  buffer : List Delivery
  reads : Nat
  attempts : Nat
  pulled : List Delivery
deriving DecidableEq, Repr

/-- `_RabbitmqMessage`: the decoded `Message` and the delivery it came from. -/
structure _RabbitmqMessage where
  message : Message
  rabbitmqMessage : Delivery
deriving DecidableEq, Repr

/-- What `__next__` raises: `ConnectionClosed` around an AMQP error, or the error of
`Message.decode` on a body, which no `except` of `__next__` catches. -/
inductive NextError where
  | connectionClosed (e : AMQPError)
  | decodeError (body : String)
deriving DecidableEq, Repr

/-- `time.monotonic()`. -/
def Inbound.monotonic (w : NextEnv) (s : Inbound) : Inbound × ℚ :=
  ({ s with reads := s.reads + 1 }, w.clock s.reads)

/-- One `next(self.channel.build_inbound_messages(...))` (rabbitmq.py:390): what arrived joins
the buffer; then the pull raises, pops the head, or finds the buffer empty
(`StopIteration`, here `.ok none`). -/
def Inbound.pull (w : NextEnv) (s : Inbound) : Inbound × Except AMQPError (Option Delivery) :=
  let n := s.attempts
  let s := { s with buffer := s.buffer ++ w.arrivals n, attempts := n + 1 }
  match w.amqp n, s.buffer with
  | some e, _ => (s, .error e)
  | none, [] => (s, .ok none)
  | none, d :: rest => ({ s with buffer := rest, pulled := s.pulled ++ [d] }, .ok (some d))

/-- `while message is None and time.monotonic() < deadline` (rabbitmq.py:388-392); `none`
when `fuel` runs out. A pulled message ends the loop before the clock is read again. -/
def pollLoop (w : NextEnv) (deadline : ℚ) : Nat → Inbound → Option (Inbound × Except AMQPError (Option Delivery))
  | 0, _ => none
  | fuel + 1, s =>
    let (s, now) := s.monotonic w
    if now < deadline then
      match s.pull w with
      | (s, .ok none) => pollLoop w deadline fuel s
      | r => some r
    else some (s, .ok none)

section
variable (decode : String → Option Message)

/-- `_RabbitmqMessage.__init__` (rabbitmq.py:406-409), with `Message.decode` given as `decode`
(message.py is not in the source tree): `none` is a body it rejects. -/
def _RabbitmqMessage.init (d : Delivery) : Option _RabbitmqMessage :=
  (decode d.body).map fun m => ⟨m, d⟩

/-- `return _RabbitmqMessage(message) if message else None` under the `except` that turns an
AMQP error into `ConnectionClosed` (rabbitmq.py:394-396); a pulled `amqpstorm` message is
never falsy. -/
def nextResult : Except AMQPError (Option Delivery) → Except NextError (Option _RabbitmqMessage)
  | .error e => .error (.connectionClosed e)
  | .ok none => .ok none
  | .ok (some d) =>
    match _RabbitmqMessage.init decode d with
    | some m => .ok (some m)
    | none => .error (.decodeError d.body)

/-- `_RabbitmqConsumer.__next__` (rabbitmq.py:383-396). -/
def _RabbitmqConsumer.__next__ (c : _RabbitmqConsumer) (w : NextEnv) (fuel : Nat) (s : Inbound) :
    Option (Inbound × Except NextError (Option _RabbitmqMessage)) :=
  let (s, start) := s.monotonic w
  (pollLoop w (deadlineAfter start c.timeout) fuel s).map fun p => (p.1, nextResult decode p.2)

/-- `k` successive `next(consumer)` calls, each given `fuel` iterations. -/
def nextRun (c : _RabbitmqConsumer) (w : NextEnv) (fuel : Nat) :
    Nat → Inbound → Option (Inbound × List (Except NextError (Option _RabbitmqMessage)))
  | 0, s => some (s, [])
  | k + 1, s => (c.__next__ decode w fuel s).bind fun p =>
    (nextRun c w fuel k p.1).map fun q => (q.1, p.2 :: q.2)

end

def handedBack : Except NextError (Option _RabbitmqMessage) → List _RabbitmqMessage
  | .ok (some m) => [m]
  | _ => []

def rejected : Except NextError (Option _RabbitmqMessage) → List String
  | .error (.decodeError b) => [b]
  | _ => []

def pulledBy : Except AMQPError (Option Delivery) → List Delivery
  | .ok (some d) => [d]
  | _ => []

/-! ## Fixed worlds -/

/-- `consume("default", timeout=5000)`'s consumer. -/
def defaultConsumer : _RabbitmqConsumer := ⟨⟨0, 0⟩, 5000⟩

def Inbound.init : Inbound := ⟨[], 0, 0, []⟩

def badDelivery : Delivery := ⟨"not a message", 1⟩

/-- A `Message.decode` that rejects that body and reads every other one as a message. -/
def rejectBad (body : String) : Option Message :=
  if body = badDelivery.body then none else some ⟨"default", "add", body, []⟩

/-- A world in which nothing arrives, no pull raises, and the clock reads `0, 1, 2, …`. -/
def idleWorld : NextEnv := ⟨fun n => n, fun _ => [], fun _ => none⟩

/-- The same world with the bad delivery in the buffer at the first pull. -/
def badWorld : NextEnv := ⟨fun n => n, fun n => if n = 0 then [badDelivery] else [], fun _ => none⟩

/-! ## The buffer -/

/-- The deliveries that arrive before pulls `a, …, a + n - 1`, in order. -/
def NextEnv.arrived (w : NextEnv) (a : Nat) : Nat → List Delivery
  | 0 => []
  | n + 1 => w.arrived a n ++ w.arrivals (a + n)

theorem NextEnv.arrived_add (w : NextEnv) (a n : Nat) :
    ∀ m, w.arrived a (n + m) = w.arrived a n ++ w.arrived (a + n) m
  | 0 => by simp [NextEnv.arrived]
  | m + 1 => by
    rw [← Nat.add_assoc, NextEnv.arrived, NextEnv.arrived_add w a n m, NextEnv.arrived, List.append_assoc,
      Nat.add_assoc]

/-- **What the buffer did** from `s` to `s'`: the deliveries `P` were pulled off it in order,
and what arrived in between joined it, so `buffer ++ arrived = P ++ buffer'`. -/
structure Fifo (w : NextEnv) (s s' : Inbound) (P : List Delivery) : Prop where
  pulled : s'.pulled = s.pulled ++ P
  attempts : s.attempts ≤ s'.attempts
  buffer : s.buffer ++ w.arrived s.attempts (s'.attempts - s.attempts) = P ++ s'.buffer

variable {w : NextEnv} {s s' s₁ s₂ : Inbound} {P Q : List Delivery}

theorem Fifo.of_eq (hb : s'.buffer = s.buffer) (ha : s'.attempts = s.attempts) (hp : s'.pulled = s.pulled) :
    Fifo w s s' [] :=
  ⟨by simp [hp], ha.ge, by simp [ha, hb, NextEnv.arrived]⟩

theorem Fifo.trans (h₁ : Fifo w s s₁ P) (h₂ : Fifo w s₁ s₂ Q) : Fifo w s s₂ (P ++ Q) := by
  refine ⟨by rw [h₂.pulled, h₁.pulled, List.append_assoc], h₁.attempts.trans h₂.attempts, ?_⟩
  have hn : s₂.attempts - s.attempts = (s₁.attempts - s.attempts) + (s₂.attempts - s₁.attempts) := by
    have := h₁.attempts; have := h₂.attempts; omega
  have ha : s.attempts + (s₁.attempts - s.attempts) = s₁.attempts := by have := h₁.attempts; omega
  rw [hn, NextEnv.arrived_add, ha, ← List.append_assoc, h₁.buffer, List.append_assoc, h₂.buffer,
    List.append_assoc]

@[simp] theorem monotonic_fst_reads : (s.monotonic w).1.reads = s.reads + 1 := rfl

@[simp] theorem monotonic_snd : (s.monotonic w).2 = w.clock s.reads := rfl

theorem monotonic_fifo : Fifo w s (s.monotonic w).1 [] := Fifo.of_eq rfl rfl rfl

/-- **One pull**: it reads no clock, and it pulls at most the head of the buffer. -/
theorem pull_spec (w : NextEnv) (s : Inbound) :
    (s.pull w).1.reads = s.reads ∧ Fifo w s (s.pull w).1 (pulledBy (s.pull w).2) := by
  have hA : w.arrived s.attempts 1 = w.arrivals s.attempts := by simp [NextEnv.arrived]
  unfold Inbound.pull
  dsimp only
  rcases w.amqp s.attempts with _ | e
  · rcases hb : s.buffer ++ w.arrivals s.attempts with _ | ⟨d, rest⟩ <;>
      exact ⟨rfl, by simp [pulledBy], by simp, by simp [hA, hb, pulledBy]⟩
  · exact ⟨rfl, by simp [pulledBy], by simp, by simp [hA, pulledBy]⟩

/-- **The polling loop**: it reads the clock at least once, pulls at most one delivery, and
ends without one only after a reading at or past the deadline. -/
theorem pollLoop_spec (w : NextEnv) (dl : ℚ) :
    ∀ fuel s s' r, pollLoop w dl fuel s = some (s', r) →
      Fifo w s s' (pulledBy r) ∧ s.reads < s'.reads ∧ (r = .ok none → dl ≤ w.clock (s'.reads - 1))
  | 0, _, _, _, h => nomatch h
  | fuel + 1, s, s', r, h => by
    obtain ⟨hr, hf⟩ := pull_spec w (s.monotonic w).1
    have hf' := monotonic_fifo.trans hf
    simp only [pollLoop, monotonic_snd] at h
    split at h
    · rcases hp : (s.monotonic w).1.pull w with ⟨s₁, e | _ | d⟩ <;>
        rw [hp] at h hr hf' <;> simp only [monotonic_fst_reads, List.nil_append] at h hr hf'
      · cases h
        exact ⟨hf', by omega, nofun⟩
      · obtain ⟨hf₁, hlt, hn⟩ := pollLoop_spec w dl fuel s₁ s' r h
        exact ⟨by simpa [pulledBy] using hf'.trans hf₁, by omega, hn⟩
      · cases h
        exact ⟨hf', by omega, nofun⟩
    · cases h
      exact ⟨monotonic_fifo, by simp, fun _ => by simpa using le_of_not_lt ‹_›⟩

theorem pulledBy_length_le (r : Except AMQPError (Option Delivery)) : (pulledBy r).length ≤ 1 := by
  rcases r with _ | _ | _ <;> simp [pulledBy]

section
variable (decode : String → Option Message)

/-- **One call**: what its polling loop pulled is handed back when the body decodes and is the
call's decode error when it does not; a call that returns `None` pulled nothing and read the
clock at or past its deadline. -/
theorem next_spec (c : _RabbitmqConsumer) (fuel : Nat) (s s' : Inbound)
    (r : Except NextError (Option _RabbitmqMessage)) (h : c.__next__ decode w fuel s = some (s', r)) :
    ∃ P, Fifo w s s' P ∧ P.length ≤ 1 ∧ handedBack r = P.filterMap (_RabbitmqMessage.init decode) ∧
      rejected r = (P.filter fun d => (decode d.body).isNone).map Delivery.body ∧
      (r = .ok none → P = [] ∧ s.reads + 1 < s'.reads ∧ deadlineAfter (w.clock s.reads) c.timeout ≤ w.clock (s'.reads - 1)) := by
  simp only [_RabbitmqConsumer.__next__, Option.map_eq_some', Prod.mk.injEq] at h
  obtain ⟨⟨s₁, r₁⟩, h₁, rfl, rfl⟩ := h
  obtain ⟨hf, hlt, hn⟩ := pollLoop_spec w _ fuel _ s₁ r₁ h₁
  have hf' := monotonic_fifo.trans hf
  simp only [List.nil_append, monotonic_fst_reads, monotonic_snd] at hf' hlt hn
  refine ⟨pulledBy r₁, hf', pulledBy_length_le r₁, ?_⟩
  rcases r₁ with e | _ | d
  · simp [nextResult, handedBack, rejected, pulledBy]
  · exact ⟨rfl, rfl, fun _ => ⟨rfl, hlt, hn rfl⟩⟩
  · rcases hd : decode d.body with _ | m <;>
      simp [nextResult, handedBack, rejected, pulledBy, _RabbitmqMessage.init, hd]

/-- **Successive calls**: the pulled deliveries leave the buffer in order, at most one per
call, and the messages handed back and the bodies rejected are the pulled deliveries that
decode and those that do not. -/
theorem nextRun_spec (c : _RabbitmqConsumer) (fuel : Nat) :
    ∀ k s s' rs, nextRun decode c w fuel k s = some (s', rs) →
      ∃ P, Fifo w s s' P ∧ P.length ≤ k ∧ rs.flatMap handedBack = P.filterMap (_RabbitmqMessage.init decode) ∧
        rs.flatMap rejected = (P.filter fun d => (decode d.body).isNone).map Delivery.body
  | 0, s, s', rs, h => by
    cases h
    exact ⟨[], Fifo.of_eq rfl rfl rfl, le_rfl, rfl, rfl⟩
  | k + 1, s, s', rs, h => by
    simp only [nextRun, Option.bind_eq_some, Option.map_eq_some'] at h
    obtain ⟨⟨s₁, r⟩, h₁, ⟨s₂, rs'⟩, h₂, he⟩ := h
    cases he
    obtain ⟨P, hP, hl, hb, hr, -⟩ := next_spec decode c fuel s s₁ r h₁
    obtain ⟨Q, hQ, hl', hb', hr'⟩ := nextRun_spec c fuel k s₁ s₂ rs' h₂
    refine ⟨P ++ Q, hP.trans hQ, by simp; omega, ?_, ?_⟩
    · rw [List.flatMap_cons, hb, hb', List.filterMap_append]
    · rw [List.flatMap_cons, hr, hr', List.filter_append, List.map_append]

/-- **`__next__` over every run**: a call returns `None` only when it pulled no delivery and
its last clock reading was at or past its deadline, `start + timeout / 1000` as binary64
computes it; over any number of successive
calls the deliveries pulled are the buffered and arrived ones, in order, each once and at most
one per call, and the messages handed back are exactly the pulled deliveries whose bodies
`Message.decode` accepts, in order, while each rejected body is one call's error. -/
theorem next_hands_back_in_order (c : _RabbitmqConsumer) (w : NextEnv) (fuel : Nat) :
    (∀ s s', c.__next__ decode w fuel s = some (s', .ok none) →
        s'.pulled = s.pulled ∧ ∃ n, s.reads < n ∧ s'.reads = n + 1 ∧ deadlineAfter (w.clock s.reads) c.timeout ≤ w.clock n) ∧
    ∀ k s s' rs, nextRun decode c w fuel k s = some (s', rs) →
      ∃ P, Fifo w s s' P ∧ P.length ≤ k ∧ rs.flatMap handedBack = P.filterMap (_RabbitmqMessage.init decode) ∧
        rs.flatMap rejected = (P.filter fun d => (decode d.body).isNone).map Delivery.body := by
  refine ⟨fun s s' h => ?_, nextRun_spec decode c fuel⟩
  obtain ⟨P, hP, -, -, -, hn⟩ := next_spec decode c fuel s s' _ h
  obtain ⟨rfl, hlt, hc⟩ := hn rfl
  exact ⟨by simpa using hP.pulled, s'.reads - 1, by omega, by omega, hc⟩

theorem deadlineAfter_zero_five_seconds : deadlineAfter 0 5000 = 5 := by
  simpa using deadlineAfter_natCast 0 5 (by norm_num)

theorem next_idle : defaultConsumer.__next__ rejectBad idleWorld 5 Inbound.init = some (⟨[], 6, 4, []⟩, .ok none) := by
  norm_num [_RabbitmqConsumer.__next__, pollLoop, Inbound.monotonic, Inbound.pull, idleWorld, defaultConsumer,
    Inbound.init, nextResult, deadlineAfter_zero_five_seconds]

theorem next_hands_back_in_order_idle :
    defaultConsumer.__next__ rejectBad idleWorld 5 Inbound.init = some (⟨[], 6, 4, []⟩, .ok none) ∧
      ((⟨[], 6, 4, []⟩ : Inbound).pulled = Inbound.init.pulled ∧ ∃ n, Inbound.init.reads < n ∧ 6 = n + 1 ∧
        deadlineAfter (idleWorld.clock Inbound.init.reads) defaultConsumer.timeout ≤ idleWorld.clock n) :=
  ⟨next_idle, (next_hands_back_in_order rejectBad defaultConsumer idleWorld 5).1 _ _ next_idle⟩

theorem badWorld_arrived : ∀ n, badWorld.arrived 1 n = []
  | 0 => rfl
  | n + 1 => by rw [NextEnv.arrived, badWorld_arrived n]; simp [badWorld]

/-- **An undecodable delivery is dropped**: the first call pulls the bad delivery off the buffer
and raises the decode error, and no later call, with any fuel, ever hands it back. -/
theorem next_drops_undecodable :
    defaultConsumer.__next__ rejectBad badWorld 1 Inbound.init =
        some (⟨[], 2, 1, [badDelivery]⟩, .error (.decodeError badDelivery.body)) ∧
      ∀ fuel k s' rs, nextRun rejectBad defaultConsumer badWorld fuel k ⟨[], 2, 1, [badDelivery]⟩ = some (s', rs) →
        ∀ m ∈ rs.flatMap handedBack, m.rabbitmqMessage ≠ badDelivery := by
  refine ⟨by norm_num [_RabbitmqConsumer.__next__, pollLoop, Inbound.monotonic, Inbound.pull, badWorld,
    defaultConsumer, Inbound.init, nextResult, _RabbitmqMessage.init, rejectBad, deadlineAfter_zero_five_seconds],
    fun fuel k s' rs h m hm => ?_⟩
  obtain ⟨P, hP, -, hb, -⟩ := nextRun_spec rejectBad defaultConsumer fuel k _ s' rs h
  have hP0 : P = [] := by
    have := hP.buffer
    simp only [badWorld_arrived, List.nil_append] at this
    exact (List.append_eq_nil.1 this.symm).1
  simp [hb, hP0] at hm

/-! ## Termination -/

theorem pollLoop_isSome (w : NextEnv) (dl : ℚ) :
    ∀ fuel s N, dl ≤ w.clock (s.reads + N) → N < fuel → (pollLoop w dl fuel s).isSome
  | 0, _, _, _, hf => absurd hf (Nat.not_lt_zero _)
  | fuel + 1, s, N, hN, hf => by
    obtain ⟨hr, -⟩ := pull_spec w (s.monotonic w).1
    simp only [pollLoop, monotonic_snd]
    split
    · rename_i hlt
      have hN0 : N ≠ 0 := by rintro rfl; exact absurd hN (not_le.2 hlt)
      rcases hp : (s.monotonic w).1.pull w with ⟨s₁, e | _ | d⟩ <;> rw [hp] at hr <;> simp only [monotonic_fst_reads] at hr
      · rfl
      · refine pollLoop_isSome w dl fuel s₁ (N - 1) ?_ (by omega)
        rwa [hr, Nat.add_assoc, Nat.add_sub_cancel' (Nat.one_le_iff_ne_zero.2 hN0)]
      · rfl
    · rfl

/-- **`__next__` ends** once a reading within its fuel is at or past its deadline: if the
`N`-th reading after `start` is at or past `start + timeout / 1000` as binary64 computes it,
`N + 1` iterations of fuel give a result. -/
theorem next_terminates (c : _RabbitmqConsumer) (w : NextEnv) (s : Inbound) (N : Nat)
    (hN : deadlineAfter (w.clock s.reads) c.timeout ≤ w.clock (s.reads + 1 + N)) (fuel : Nat) (hf : N < fuel) :
    (c.__next__ decode w fuel s).isSome := by
  simp only [_RabbitmqConsumer.__next__, Option.isSome_map']
  exact pollLoop_isSome w _ fuel _ N (by simpa using hN) hf

theorem next_terminates_idle :
    (deadlineAfter (idleWorld.clock Inbound.init.reads) defaultConsumer.timeout ≤
        idleWorld.clock (Inbound.init.reads + 1 + 4) ∧ 4 < 5) ∧
      (defaultConsumer.__next__ rejectBad idleWorld 5 Inbound.init).isSome :=
  have hN : deadlineAfter (idleWorld.clock Inbound.init.reads) defaultConsumer.timeout ≤
      idleWorld.clock (Inbound.init.reads + 1 + 4) := by
    norm_num [idleWorld, Inbound.init, defaultConsumer, deadlineAfter_zero_five_seconds]
  ⟨⟨hN, by decide⟩, next_terminates rejectBad defaultConsumer idleWorld Inbound.init 4 hN 5 (by decide)⟩

end

/-! ## `ack`, `nack` and `close` -/

inductive Failure where
  | amqp (e : AMQPError)
  | other
deriving DecidableEq, Repr

/-- A frame on the consumer channel that settles a delivery. -/
inductive Settle where
  | ack (deliveryTag : Nat)
  | nack (deliveryTag : Nat) (requeue : Bool)
deriving DecidableEq, Repr

/-- What `ack` and `nack` are given: a message `__next__` handed back, or any other object (the
tests pass `Mock(_tag=1)`), whose own `ack()` or `nack()` ends as `outcome` says and sends
nothing on the channel. -/
inductive Settled where
  | rabbitmq (m : _RabbitmqMessage)
  | other (outcome : Option Failure)

/-- `frame` sent on the consumer channel, which takes it or raises `err`. -/
def sendFrame (frame : Settle) : Option AMQPError → List Settle × Option Failure
  | none => ([frame], none)
  | some e => ([], some (.amqp e))

/-- `_RabbitmqMessage.ack` (rabbitmq.py:411-412). -/
def _RabbitmqMessage.ack (m : _RabbitmqMessage) : Option AMQPError → List Settle × Option Failure :=
  sendFrame (.ack m.rabbitmqMessage.deliveryTag)

/-- `_RabbitmqMessage.nack` (rabbitmq.py:414-415). -/
def _RabbitmqMessage.nack (m : _RabbitmqMessage) (requeue : Bool) : Option AMQPError → List Settle × Option Failure :=
  sendFrame (.nack m.rabbitmqMessage.deliveryTag requeue)

/-- The body of `_RabbitmqConsumer.ack` and `nack` (rabbitmq.py:362-376): `method` of the
message, under an `except` that turns an AMQP error into `ConnectionClosed` and one that logs any
other exception as `warning`; the frames sent, and `None` with the warnings logged. -/
def settle (warning : String) (method : _RabbitmqMessage → Option AMQPError → List Settle × Option Failure)
    (err : Option AMQPError) (message : Settled) : List Settle × Except AMQPError (List String) :=
  let p := match message with
    | .rabbitmq m => method m err
    | .other o => ([], o)
  (p.1, match p.2 with
    | none => .ok []
    | some (.amqp e) => .error e
    | some .other => .ok [warning])

/-- `_RabbitmqConsumer.ack` (rabbitmq.py:362-368). -/
def _RabbitmqConsumer.ack : Option AMQPError → Settled → List Settle × Except AMQPError (List String) :=
  settle "Failed to ack message." _RabbitmqMessage.ack

/-- `_RabbitmqConsumer.nack` (rabbitmq.py:370-376). -/
def _RabbitmqConsumer.nack : Option AMQPError → Settled → List Settle × Except AMQPError (List String) :=
  settle "Failed to nack message." fun m => m.nack false

/-- What `close` raises: `ConnectionClosed` around an AMQP error, or another exception of
`channel.close()`, which no `except` of `close` catches. -/
inductive CloseError where
  | connectionClosed (e : AMQPError)
  | uncaught
deriving DecidableEq, Repr

/-- `_RabbitmqConsumer.close` (rabbitmq.py:398-402), given what `channel.close()` raises. -/
def _RabbitmqConsumer.close : Option Failure → Except CloseError Unit
  | none => .ok ()
  | some (.amqp e) => .error (.connectionClosed e)
  | some .other => .error .uncaught

/-- **Unknown messages are ignored** (test_rabbitmq.py:263-272): given an object that is not a
handed-back message, `ack` and `nack` send nothing and return `None`, having logged at most the
warning, unless its own method raised an AMQP error. -/
theorem settle_other (warning : String) (method : _RabbitmqMessage → Option AMQPError → List Settle × Option Failure)
    (err : Option AMQPError) {o : Option Failure} (ho : ∀ e, o ≠ some (.amqp e)) :
    (settle warning method err (.other o)).1 = [] ∧ ∃ L ⊆ [warning], (settle warning method err (.other o)).2 = .ok L := by
  rcases o with _ | _ | _
  · exact ⟨rfl, [], List.nil_subset _, rfl⟩
  · exact absurd rfl (ho _)
  · exact ⟨rfl, [warning], List.Subset.refl _, rfl⟩

theorem nack_never_requeues (err : Option AMQPError) (message : Settled) :
    ∀ f ∈ (_RabbitmqConsumer.nack err message).1, ∃ tag, f = .nack tag false := by
  rcases message with m | o
  · rcases err with _ | e <;> simp [_RabbitmqConsumer.nack, settle, _RabbitmqMessage.nack, sendFrame]
  · simp [_RabbitmqConsumer.nack, settle]

/-- **A handed-back message settles its own delivery**: after a call of `__next__` hands back
`m`, that call pulled one delivery, and `ack(m)` and `nack(m)` on a channel that takes the frame
send one frame for that delivery's tag and return `None` without a warning. -/
theorem settle_handedBack (decode : String → Option Message) (c : _RabbitmqConsumer) (w : NextEnv) (fuel : Nat)
    {s s' : Inbound} {m : _RabbitmqMessage} (h : c.__next__ decode w fuel s = some (s', .ok (some m))) :
    ∃ d, s'.pulled = s.pulled ++ [d] ∧ _RabbitmqConsumer.ack none (.rabbitmq m) = ([.ack d.deliveryTag], .ok []) ∧
      _RabbitmqConsumer.nack none (.rabbitmq m) = ([.nack d.deliveryTag false], .ok []) := by
  obtain ⟨P, hP, hl, hb, -⟩ := next_spec decode c fuel s s' _ h
  have hm : [m] = P.filterMap (_RabbitmqMessage.init decode) := hb
  obtain ⟨d, rfl⟩ : ∃ d, P = [d] := by
    rcases P with _ | ⟨d, _ | _⟩
    · simp at hm
    · exact ⟨d, rfl⟩
    · simp at hl
  have hd : m.rabbitmqMessage = d := by
    rcases hi : _RabbitmqMessage.init decode d with _ | m' <;> simp [hi] at hm
    subst hm
    simp only [_RabbitmqMessage.init, Option.map_eq_some'] at hi
    obtain ⟨_, -, rfl⟩ := hi
    rfl
  exact ⟨d, hP.pulled, by simp [_RabbitmqConsumer.ack, settle, _RabbitmqMessage.ack, sendFrame, hd],
    by simp [_RabbitmqConsumer.nack, settle, _RabbitmqMessage.nack, sendFrame, hd]⟩

/-- **`close` raises what `ack` and `nack` log**: `close` has no `except Exception`, so a
non-AMQP exception that `ack` and `nack` log as their warning reaches the caller of `close`. -/
theorem close_raises_what_settle_logs (err : Option AMQPError) :
    (_RabbitmqConsumer.ack err (.other (some .other))).2 = .ok ["Failed to ack message."] ∧
      (_RabbitmqConsumer.nack err (.other (some .other))).2 = .ok ["Failed to nack message."] ∧
      _RabbitmqConsumer.close (some .other) = .error .uncaught :=
  ⟨rfl, rfl, rfl⟩

end Remoulade.Broker
