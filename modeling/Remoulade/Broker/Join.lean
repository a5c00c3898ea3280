import Mathlib.Algebra.Order.Field.Rat
import Mathlib.Algebra.Order.Ring.Cast
import Mathlib.Tactic.Positivity
import Remoulade.Common
import Remoulade.Binary64
/-!
# `join` (rabbitmq.py:317-348)

`join` polls `get_queue_message_counts` until `min_successes` samples in a row read no
message in the main and delay queues, sleeping `idle_time` ms after each sample, and raises
`QueueJoinTimeout` when a deadline has passed. The clock and the counts are the world's:
`JoinEnv` gives every reading. The loop is given fuel, since `join` need not end.

The deadline is `timeout and time.monotonic() + timeout / 1000`, computed in binary64
(`deadlineAfter`): for `timeout=0` it is `0`, which is false, so `join(timeout=0)` has no
deadline at all (`join_zero_timeout_busy`).

* `joinLoop_spec` — every sample is taken with fewer than `min_successes` empty samples just
  before it and before the deadline; a normal return follows `min_successes` empty samples in
  a row, and a timeout a reading at or past the deadline.
* `join_returns_after_empty`, `join_stops_after_empty`, `join_ignores_dead_letters`,
  `join_deadline`, `join_terminates` — the parts of `join`'s contract that hold for every
  timeout.
-/
namespace Remoulade.Join

/-- What `join` reads from the world: `clock 0` is `time.monotonic()` when the call begins and
`clock (k + 1)` its value when iteration `k` checks the deadline; `counts k` is what the
`k`-th `get_queue_message_counts` returns (main, delay and dead-letter queue). -/
structure JoinEnv where
  clock : Nat → ℚ
  counts : Nat → Nat × Nat × Nat

/-- How `join` ends. -/
inductive Outcome where
  | returned
  /-- `QueueJoinTimeout(queue_name)`. -/
  | queueJoinTimeout (queueName : String)
  /-- `time.sleep` of a negative length raises `ValueError`. -/
  | sleepFailed
deriving DecidableEq, Repr

/-- `deadline = timeout and time.monotonic() + timeout / 1000` (rabbitmq.py:336): `None`
stays `None` and `0` stays `0`. -/
def deadlineOf (start : ℚ) : Option Int → Option ℚ
  | none => none
  | some t => if t = 0 then some 0 else some (deadlineAfter start t)

/-- Python truthiness of `deadline`. -/
def truthy : Option ℚ → Bool
  | some d => d != 0
  | none => false

/-- `if deadline and time.monotonic() >= deadline` at iteration `k` (rabbitmq.py:339). -/
def expired (e : JoinEnv) (deadline : Option ℚ) (k : Nat) : Bool :=
  truthy deadline && decide (deadline.getD 0 ≤ e.clock (k + 1))

/-- `sum(self.get_queue_message_counts(queue_name)[:-1]) == 0` for sample `k`. -/
def JoinEnv.empty (e : JoinEnv) (k : Nat) : Bool := (e.counts k).1 + (e.counts k).2.1 = 0

/-- The `while successes < min_successes` loop (rabbitmq.py:338-348) at iteration `k`; the
outcome and the number of samples taken, or `none` when `fuel` runs out. -/
def joinLoop (e : JoinEnv) (queueName : String) (minSuccesses idleTime : Int) (deadline : Option ℚ) :
    Nat → Nat → Int → Option (Outcome × Nat)
  | 0, _, _ => none
  | fuel + 1, k, successes =>
    if successes < minSuccesses then
      if expired e deadline k then some (.queueJoinTimeout queueName, k)
      else
        let successes := if e.empty k then successes + 1 else 0
        if idleTime < 0 then some (.sleepFailed, k + 1)
        else joinLoop e queueName minSuccesses idleTime deadline fuel (k + 1) successes
    else some (.returned, k)

/-- `join(queue_name, min_successes, idle_time, timeout=timeout)` (rabbitmq.py:317-348). -/
def join (e : JoinEnv) (queueName : String) (minSuccesses idleTime : Int) (timeout : Option Int) (fuel : Nat) :
    Option (Outcome × Nat) :=
  joinLoop e queueName minSuccesses idleTime (deadlineOf (e.clock 0) timeout) fuel 0 0

/-! ## The success counter -/

/-- How many samples in a row read empty queues just before sample `k`: the value of
`successes` at iteration `k`. -/
def JoinEnv.streak (e : JoinEnv) : Nat → Nat
  | 0 => 0
  | k + 1 => if e.empty k then e.streak k + 1 else 0

variable {e : JoinEnv}

theorem streak_succ_cast (k : Nat) :
    (if e.empty k then (e.streak k : Int) + 1 else 0) = (e.streak (k + 1) : Int) := by
  simp only [JoinEnv.streak]; split <;> simp

/-- A streak of `n` before sample `k` is `n` empty samples right before it. -/
theorem streak_ge_iff (n k : Nat) : n ≤ e.streak k ↔ n ≤ k ∧ ∀ i, k - n ≤ i → i < k → e.empty i := by
  induction k generalizing n with
  | zero => simp [JoinEnv.streak]
  | succ k ih =>
    simp only [JoinEnv.streak]
    split
    · rename_i hk
      cases n with
      | zero => exact ⟨fun _ => ⟨Nat.zero_le _, fun i hi hik => absurd hik (by omega)⟩, fun _ => Nat.zero_le _⟩
      | succ n =>
        rw [Nat.succ_le_succ_iff, ih]
        constructor
        · rintro ⟨hn, h⟩
          refine ⟨by omega, fun i hi hik => ?_⟩
          rcases Nat.lt_succ_iff_lt_or_eq.1 hik with hik | rfl
          exacts [h i (by omega) hik, hk]
        · rintro ⟨hn, h⟩
          exact ⟨by omega, fun i hi hik => h i (by omega) (by omega)⟩
    · rename_i hk
      constructor
      · intro hn
        simp only [Nat.le_zero] at hn
        subst hn
        exact ⟨Nat.zero_le _, fun i hi hik => absurd hik (by omega)⟩
      · rintro ⟨hn, h⟩
        by_contra hne
        exact hk (h k (by omega) (Nat.lt_succ_self k))

/-! ## The loop -/

/-- **The loop, from iteration `k`**: samples `k, …, k' - 1` are taken, each with a streak
below `min_successes` and before the deadline; then either `min_successes` empty samples in a
row end it normally, or the deadline has passed, or the first `time.sleep` fails. -/
theorem joinLoop_spec (e : JoinEnv) (queueName : String) (ms it : Int) (dl : Option ℚ) :
    ∀ fuel k o k', joinLoop e queueName ms it dl fuel k (e.streak k) = some (o, k') →
      k ≤ k' ∧ (∀ j, k ≤ j → j < k' → (e.streak j : Int) < ms ∧ expired e dl j = false) ∧
      (o = .returned → ms ≤ e.streak k') ∧
      (∀ q, o = .queueJoinTimeout q → q = queueName ∧ (e.streak k' : Int) < ms ∧ expired e dl k' = true) ∧
      (o = .sleepFailed → it < 0 ∧ k' = k + 1)
  | 0, _, _, _, h => nomatch h
  | fuel + 1, k, o, k', h => by
    simp only [joinLoop] at h
    split at h
    · rename_i hms
      split at h
      · rename_i hx
        cases h
        exact ⟨le_rfl, fun j hj hj' => absurd hj' (by omega), nofun, fun _ hq => ⟨(Outcome.queueJoinTimeout.inj hq).symm, hms, hx⟩,
          nofun⟩
      · rename_i hx
        simp only [Bool.not_eq_true] at hx
        split at h
        · cases h
          refine ⟨Nat.le_succ k, fun j hj hj' => ?_, nofun, nofun, fun _ => ⟨‹_›, rfl⟩⟩
          obtain rfl : j = k := by omega
          exact ⟨hms, hx⟩
        · rw [streak_succ_cast] at h
          obtain ⟨hk, hs, hr, ht, hf⟩ := joinLoop_spec e queueName ms it dl fuel (k + 1) o k' h
          refine ⟨by omega, fun j hj hj' => ?_, hr, ht, fun ho => ⟨(hf ho).1, ?_⟩⟩
          · rcases Nat.eq_or_lt_of_le hj with rfl | hj
            exacts [⟨hms, hx⟩, hs j hj hj']
          · exact absurd (hf ho).1 ‹_›
    · cases h
      exact ⟨le_rfl, fun j hj hj' => absurd hj' (by omega), fun _ => not_lt.1 ‹_›, nofun, nofun⟩

theorem join_spec (e : JoinEnv) (queueName : String) (ms it : Int) (timeout : Option Int) (fuel : Nat) {o : Outcome}
    {k : Nat} (h : join e queueName ms it timeout fuel = some (o, k)) :
    (∀ j < k, (e.streak j : Int) < ms ∧ expired e (deadlineOf (e.clock 0) timeout) j = false) ∧
      (o = .returned → ms ≤ e.streak k) ∧
      (∀ q, o = .queueJoinTimeout q → q = queueName ∧ expired e (deadlineOf (e.clock 0) timeout) k = true) ∧
      (o = .sleepFailed → it < 0 ∧ k = 1) :=
  let ⟨_, hs, hr, ht, hf⟩ := joinLoop_spec e queueName ms it _ fuel 0 o k h
  ⟨fun j hj => hs j (Nat.zero_le j) hj, hr, fun q hq => ⟨(ht q hq).1, (ht q hq).2.2⟩, hf⟩

/-! ## What holds for every timeout -/

/-- An idle queue, on a clock that advances by one at every reading. -/
def idle : JoinEnv := ⟨fun k => k, fun _ => (0, 0, 0)⟩

def idleDead : JoinEnv := ⟨fun k => k, fun _ => (0, 0, 5)⟩

/-- A queue that never empties, on the same clock. -/
def busy : JoinEnv := ⟨fun k => k, fun _ => (1, 0, 0)⟩

/-- **A normal return follows `min_successes` empty samples**: at least `min_successes`
samples were taken, and the last `min_successes` of them read no message in the main and
delay queues. -/
theorem join_returns_after_empty (e : JoinEnv) (queueName : String) (ms it : Int) (timeout : Option Int)
    (fuel k : Nat) (h : join e queueName ms it timeout fuel = some (.returned, k)) :
    ms.toNat ≤ k ∧ ∀ i, k - ms.toNat ≤ i → i < k → (e.counts i).1 + (e.counts i).2.1 = 0 := by
  have hs : ms.toNat ≤ e.streak k := by have := (join_spec e queueName ms it timeout fuel h).2.1 rfl; omega
  obtain ⟨hk, he⟩ := (streak_ge_iff _ _).1 hs
  exact ⟨hk, fun i hi hik => by simpa [JoinEnv.empty] using he i hi hik⟩

theorem join_returns_after_empty_idle :
    join idle "default" 1 100 none 2 = some (.returned, 1) ∧
      (1 : Int).toNat ≤ 1 ∧ ∀ i, 1 - (1 : Int).toNat ≤ i → i < 1 → (idle.counts i).1 + (idle.counts i).2.1 = 0 :=
  ⟨rfl, join_returns_after_empty idle "default" 1 100 none 2 1 rfl⟩

/-- **No sample after `min_successes` empty ones**: however `join` ends, no sample was taken
right after `min_successes` samples in a row that read empty queues. -/
theorem join_stops_after_empty (e : JoinEnv) (queueName : String) (ms it : Int) (timeout : Option Int) (fuel : Nat)
    {o : Outcome} {k : Nat} (h : join e queueName ms it timeout fuel = some (o, k)) :
    ∀ j < k, ¬ (ms.toNat ≤ j ∧ ∀ i, j - ms.toNat ≤ i → i < j → (e.counts i).1 + (e.counts i).2.1 = 0) := by
  rintro j hj ⟨hmj, he⟩
  have hlt := ((join_spec e queueName ms it timeout fuel h).1 j hj).1
  have hge : ms.toNat ≤ e.streak j :=
    (streak_ge_iff _ _).2 ⟨hmj, fun i hi hij => by simpa [JoinEnv.empty] using he i hi hij⟩
  omega

theorem join_stops_after_empty_idle :
    join idle "default" 1 100 none 2 = some (.returned, 1) ∧
      ∀ j < 1, ¬ ((1 : Int).toNat ≤ j ∧ ∀ i, j - (1 : Int).toNat ≤ i → i < j → (idle.counts i).1 + (idle.counts i).2.1 = 0) :=
  ⟨rfl, join_stops_after_empty idle "default" 1 100 none 2 rfl⟩

theorem joinLoop_congr {e e' : JoinEnv} (hc : e.clock = e'.clock) (he : ∀ n, e.empty n = e'.empty n)
    (queueName : String) (ms it : Int) (dl : Option ℚ) :
    ∀ fuel k s, joinLoop e queueName ms it dl fuel k s = joinLoop e' queueName ms it dl fuel k s
  | 0, _, _ => rfl
  | fuel + 1, k, s => by
    simp only [joinLoop, expired, hc, he, joinLoop_congr hc he queueName ms it dl fuel]

/-- **The dead-letter count is never read**: two worlds with the same clock and the same
main and delay counts give the same run of `join`. -/
theorem join_ignores_dead_letters (e e' : JoinEnv) (hc : e.clock = e'.clock)
    (hq : ∀ n, (e.counts n).1 = (e'.counts n).1 ∧ (e.counts n).2.1 = (e'.counts n).2.1)
    (queueName : String) (ms it : Int) (timeout : Option Int) (fuel : Nat) :
    join e queueName ms it timeout fuel = join e' queueName ms it timeout fuel := by
  unfold join
  rw [hc]
  exact joinLoop_congr hc (fun n => by simp [JoinEnv.empty, (hq n).1, (hq n).2]) queueName ms it _ fuel 0 0

theorem join_ignores_dead_letters_idle :
    (idle.clock = idleDead.clock ∧ ∀ n, (idle.counts n).1 = (idleDead.counts n).1 ∧
      (idle.counts n).2.1 = (idleDead.counts n).2.1) ∧
      join idle "default" 1 100 (some 1000) 5 = join idleDead "default" 1 100 (some 1000) 5 :=
  ⟨⟨rfl, fun _ => ⟨rfl, rfl⟩⟩,
    join_ignores_dead_letters idle idleDead rfl (fun _ => ⟨rfl, rfl⟩) "default" 1 100 (some 1000) 5⟩

/-- With a positive timeout on a clock that starts at or after `0`, the deadline is
`deadlineAfter start timeout` and it is set. -/
theorem expired_pos {t : Int} (ht : 0 < t) (h0 : 0 ≤ e.clock 0) (j : Nat) :
    expired e (deadlineOf (e.clock 0) (some t)) j = decide (deadlineAfter (e.clock 0) t ≤ e.clock (j + 1)) := by
  simp [expired, deadlineOf, truthy, ht.ne', (deadlineAfter_pos h0 ht).ne', bne_iff_ne]

/-- **A positive timeout is kept**: every sample starts before the deadline
`time.monotonic() + timeout / 1000` computes, and `QueueJoinTimeout(queue_name)` is raised only
at a reading at or past it. -/
theorem join_deadline (e : JoinEnv) (queueName : String) (ms it t : Int) (ht : 0 < t) (h0 : 0 ≤ e.clock 0)
    (fuel : Nat) {o : Outcome} {k : Nat} (h : join e queueName ms it (some t) fuel = some (o, k)) :
    (∀ j < k, e.clock (j + 1) < deadlineAfter (e.clock 0) t) ∧
      ∀ q, o = .queueJoinTimeout q → q = queueName ∧ deadlineAfter (e.clock 0) t ≤ e.clock (k + 1) := by
  obtain ⟨hs, -, ht', -⟩ := join_spec e queueName ms it (some t) fuel h
  refine ⟨fun j hj => ?_, fun q ho => ⟨(ht' q ho).1, ?_⟩⟩
  · simpa [expired_pos ht h0] using (hs j hj).2
  · simpa [expired_pos ht h0] using (ht' q ho).2

theorem deadlineAfter_zero_second : deadlineAfter 0 1000 = 1 := by
  simpa using deadlineAfter_natCast 0 1 (by norm_num)

/-- `join(timeout=1000)` on a busy queue raises at the first check, which reads `1 ≥ 1.0`. -/
theorem join_deadline_busy :
    ((0 : Int) < 1000 ∧ 0 ≤ busy.clock 0 ∧ join busy "default" 1 100 (some 1000) 1 = some (.queueJoinTimeout "default", 0)) ∧
      ((∀ j < 0, busy.clock (j + 1) < deadlineAfter (busy.clock 0) 1000) ∧
        ∀ q, Outcome.queueJoinTimeout "default" = .queueJoinTimeout q →
          q = "default" ∧ deadlineAfter (busy.clock 0) 1000 ≤ busy.clock (0 + 1)) :=
  have h : join busy "default" 1 100 (some 1000) 1 = some (.queueJoinTimeout "default", 0) := by
    simp [join, joinLoop, deadlineOf, expired, truthy, deadlineAfter_zero_second, busy]
  ⟨⟨by decide, by simp [busy], h⟩, join_deadline busy "default" 1 100 1000 (by decide) (by simp [busy]) 1 h⟩

theorem joinLoop_isSome (e : JoinEnv) (queueName : String) (ms it : Int) (dl : Option ℚ) (N : Nat)
    (hN : expired e dl N = true) : ∀ fuel k s, k ≤ N → N - k < fuel → (joinLoop e queueName ms it dl fuel k s).isSome
  | 0, _, _, _, h => absurd h (Nat.not_lt_zero _)
  | fuel + 1, k, s, hk, hf => by
    simp only [joinLoop]
    split
    · split
      · rfl
      · rename_i hx
        have hkN : k < N := lt_of_le_of_ne hk fun h => hx (h ▸ hN)
        split
        · rfl
        · exact joinLoop_isSome e queueName ms it dl N hN fuel (k + 1) _ hkN (by omega)
    · rfl

/-- **`join` ends** with a positive timeout once the clock reaches the deadline: if the check
of iteration `N` reads a time at or past the computed deadline, `N + 1` iterations of fuel give
a result. -/
theorem join_terminates (e : JoinEnv) (queueName : String) (ms it t : Int) (ht : 0 < t) (h0 : 0 ≤ e.clock 0)
    (N : Nat) (hN : deadlineAfter (e.clock 0) t ≤ e.clock (N + 1)) (fuel : Nat) (hf : N < fuel) :
    (join e queueName ms it (some t) fuel).isSome :=
  joinLoop_isSome e queueName ms it _ N (by simpa [expired_pos ht h0] using hN) fuel 0 0 (Nat.zero_le N) (by omega)

theorem join_terminates_busy :
    ((0 : Int) < 1000 ∧ 0 ≤ busy.clock 0 ∧ deadlineAfter (busy.clock 0) 1000 ≤ busy.clock (0 + 1) ∧ 0 < 1) ∧
      (join busy "default" 1 100 (some 1000) 1).isSome :=
  have h0 : 0 ≤ busy.clock 0 := by simp [busy]
  have hN : deadlineAfter (busy.clock 0) 1000 ≤ busy.clock (0 + 1) := by simp [deadlineAfter_zero_second, busy]
  ⟨⟨by decide, h0, hN, Nat.one_pos⟩, join_terminates busy "default" 1 100 1000 (by decide) h0 0 hN 1 Nat.one_pos⟩

/-! ## `timeout=0` -/

theorem joinLoop_busy : ∀ fuel k, joinLoop busy "default" 1 100 (some 0) fuel k 0 = none
  | 0, _ => rfl
  | fuel + 1, k => by
    have hk : busy.empty k = false := rfl
    simp [joinLoop, expired, truthy, hk, joinLoop_busy fuel (k + 1)]

/-- **`join(timeout=0)` has no deadline**: on a queue that never empties and a clock that
never goes back, every check reads a time at or after `start + 0 / 1000`, yet `join` neither
returns nor raises `QueueJoinTimeout`: it takes sample after sample, for any amount of fuel. -/
theorem join_zero_timeout_busy :
    Monotone busy.clock ∧ (∀ k, busy.clock 0 + (0 : Int) / 1000 ≤ busy.clock (k + 1)) ∧
      ∀ fuel, join busy "default" 1 100 (some 0) fuel = none :=
  ⟨fun _ _ h => by simpa [busy] using h, fun k => by simp [busy]; positivity, fun fuel => joinLoop_busy fuel 0⟩

end Remoulade.Join
