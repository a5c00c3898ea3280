import Mathlib.Data.List.Nodup
import Remoulade.Broker.State
/-!
# `declare_queue` (rabbitmq.py:163-181)

`declare_queue` only touches the broker's bookkeeping: the server sees nothing until the
first `enqueue` or `consume`. A new name emits `before_declare_queue`, joins `queues`, emits
`after_declare_queue`, adds its delay queue to `delay_queues` and emits
`after_declare_delay_queue`; a known name does nothing. `before_declare_queue` may raise
out of the middleware, and then nothing else happens.

* `declareQueue_eq` — the three outcomes of one call.
* `declareQueue_run` — over every sequence of calls from empty sets and under every hook
  behaviour, `delay_queues` is the image of `queues` under `dq_name`; `queues` holds no name
  twice, only names passed, and exactly the names passed when no hook raises, each
  emitting its three hooks once, at its first call.
-/
namespace Remoulade.Broker

/-- Python `set.add` on a list without duplicates. -/
def setAdd (l : List String) (x : String) : List String := if x ∈ l then l else l ++ [x]

/-- `declare_queue` (rabbitmq.py:163-181); the flag says whether a `before_declare_queue`
hook raised. -/
def declareQueue (e : Env) (queueName : String) (b : Broker) : Broker × Bool :=
  if queueName ∈ b.queues then (b, false)
  else
    match b.emitBefore e (.declareQueue queueName) with
    | (b, true) => (b, true)
    | (b, false) =>
      let b := { b with queues := setAdd b.queues queueName }
      let b := b.emitAfter (.declareQueue queueName)
      let delayedName := dqName queueName
      let b := { b with delayQueues := setAdd b.delayQueues delayedName }
      (b.emitAfter (.declareDelayQueue delayedName), false)

/-- A sequence of `declare_queue` calls; a raising hook reaches the caller, who goes on. -/
def declareQueues (e : Env) (b : Broker) (names : List String) : Broker :=
  names.foldl (fun b q => (declareQueue e q b).1) b

/-- The hooks a first declaration of `q` emits. -/
def declareEvents (q : String) : List Event :=
  [.before (.declareQueue q), .after (.declareQueue q), .after (.declareDelayQueue (dqName q))]

def afterEvents (q : String) : List Event :=
  [.after (.declareQueue q), .after (.declareDelayQueue (dqName q))]

def isAfterDeclare : Event → Bool
  | .after (.declareQueue _) | .after (.declareDelayQueue _) => true
  | _ => false

@[simp] theorem mem_setAdd {l : List String} {x y : String} : x ∈ setAdd l y ↔ x ∈ l ∨ x = y := by
  unfold setAdd; split <;> simp_all

theorem nodup_setAdd {l : List String} (h : l.Nodup) (y : String) : (setAdd l y).Nodup := by
  unfold setAdd; split
  · exact h
  · exact List.nodup_append.2 ⟨h, List.nodup_singleton _, by simp_all⟩

variable {e : Env} {b : Broker} {q : String}

/-- **One call**: a known name changes nothing; otherwise the `before_declare_queue` emission
either raises, leaving both sets as they were, or the name and its delay queue are added with
all three hooks emitted. -/
theorem declareQueue_eq (e : Env) (q : String) (b : Broker) :
    declareQueue e q b =
      if q ∈ b.queues then (b, false)
      else if e.hook b.emits then
        ({ b with emits := b.emits + 1, log := b.log ++ [.before (.declareQueue q)] }, true)
      else
        ({ b with emits := b.emits + 1, queues := b.queues ++ [q],
                  delayQueues := setAdd b.delayQueues (dqName q), log := b.log ++ declareEvents q }, false) := by
  unfold declareQueue emitBefore emitAfter
  by_cases hq : q ∈ b.queues
  · simp [hq]
  · cases e.hook b.emits <;> simp [hq, setAdd, declareEvents]

/-- What every call keeps: no name twice, `delay_queues` the `dq_name` image of `queues`,
and since `b₀` exactly one pair of `after_*` hooks per declared name. -/
structure RunInv (b₀ b : Broker) : Prop where
  nodup : b.queues.Nodup
  delay : ∀ x, x ∈ b.delayQueues ↔ ∃ p ∈ b.queues, x = dqName p
  log : ∃ L, b.log = b₀.log ++ L ∧ L.filter isAfterDeclare = b.queues.flatMap afterEvents

theorem RunInv.step {b₀ : Broker} (h : RunInv b₀ b) (e : Env) (q : String) :
    RunInv b₀ (declareQueue e q b).1 := by
  rw [declareQueue_eq]
  by_cases hq : q ∈ b.queues
  · simpa [hq] using h
  obtain ⟨L, hL, hf⟩ := h.log
  by_cases hk : e.hook b.emits
  · simp only [hq, hk, if_false, if_true]
    exact ⟨h.nodup, h.delay, L ++ [.before (.declareQueue q)], by simp [hL], by simp [hf, isAfterDeclare]⟩
  · simp only [hq, hk, if_false]
    refine ⟨List.nodup_append.2 ⟨h.nodup, List.nodup_singleton _, by simp_all⟩, fun x => ?_,
      L ++ declareEvents q, by simp [hL], by simp [hf, declareEvents, afterEvents, isAfterDeclare]⟩
    show x ∈ setAdd b.delayQueues (dqName q) ↔ ∃ p ∈ b.queues ++ [q], x = dqName p
    simp only [mem_setAdd, h.delay, List.mem_append, List.mem_singleton]
    constructor
    · rintro (⟨p, hp, rfl⟩ | rfl)
      exacts [⟨p, .inl hp, rfl⟩, ⟨q, .inr rfl, rfl⟩]
    · rintro ⟨p, hp | rfl, rfl⟩
      exacts [.inl ⟨p, hp, rfl⟩, .inr rfl]

theorem RunInv.run {b₀ : Broker} (e : Env) :
    ∀ (names : List String) (b : Broker), RunInv b₀ b → RunInv b₀ (declareQueues e b names)
  | [], _, h => h
  | q :: names, _, h => RunInv.run e names _ (h.step e q)

theorem declareQueues_sub (e : Env) :
    ∀ (names : List String) (b : Broker) q, q ∈ (declareQueues e b names).queues → q ∈ b.queues ∨ q ∈ names
  | [], _, _, h => .inl h
  | p :: names, b, q, h => by
    rcases declareQueues_sub e names _ q h with h | h
    · dsimp only at h
      rw [declareQueue_eq] at h
      have : q ∈ b.queues ∨ q = p := by split_ifs at h <;> first | exact .inl h | simpa using h
      rcases this with h' | rfl
      · exact .inl h'
      · exact .inr (List.mem_cons_self _ _)
    · exact .inr (List.mem_cons_of_mem _ h)

/-- Without a raising hook every new name is declared, in the order of its first call,
emitting its three hooks there. -/
theorem declareQueues_noRaise (hh : ∀ n, e.hook n = false) :
    ∀ (names : List String) (b : Broker),
      (∀ q, q ∈ (declareQueues e b names).queues ↔ q ∈ b.queues ∨ q ∈ names) ∧
      ∃ Q, (declareQueues e b names).queues = b.queues ++ Q ∧
        (declareQueues e b names).log = b.log ++ Q.flatMap declareEvents
  | [], b => ⟨by simp [declareQueues], [], by simp [declareQueues]⟩
  | p :: names, b => by
    obtain ⟨hm, Q, hq, hl⟩ := declareQueues_noRaise hh names (declareQueue e p b).1
    have hs : declareQueues e b (p :: names) = declareQueues e (declareQueue e p b).1 names := rfl
    rw [hs]
    rw [declareQueue_eq] at hm hq hl ⊢
    by_cases hp : p ∈ b.queues
    · simp only [hp, if_true] at hm hq hl ⊢
      exact ⟨fun q => by rw [hm]; by_cases hqp : q = p <;> simp_all, Q, hq, hl⟩
    · simp only [hp, hh, if_false, Bool.false_eq_true] at hm hq hl ⊢
      exact ⟨fun q => by rw [hm]; simp; tauto, p :: Q, by simp [hq], by simp [hl]⟩

/-- **`declare_queue` over every run** from empty sets. Under every hook behaviour `queues`
holds each name once and only names passed, `delay_queues` is its `dq_name` image, and the
`after_*` hooks were emitted once per declared name. At any point of a run, a call for an
undeclared name whose `before_declare_queue` raises changes neither set, while one whose
hook returns declares the name with its three hooks. When no hook raises, `queues` is
exactly the names passed, and the run emitted the three hooks of each name once, in the
order of first calls. -/
theorem declareQueue_run (e : Env) (b : Broker) (h0 : b.queues = [] ∧ b.delayQueues = [])
    (names : List String) :
    let b' := declareQueues e b names
    (b'.queues.Nodup ∧ (∀ x, x ∈ b'.delayQueues ↔ ∃ q ∈ b'.queues, x = dqName q) ∧
      (∀ q ∈ b'.queues, q ∈ names) ∧
      ∃ L, b'.log = b.log ++ L ∧ L.filter isAfterDeclare = b'.queues.flatMap afterEvents) ∧
    (∀ q, q ∉ b'.queues →
      (e.hook b'.emits = true → (declareQueue e q b').1.queues = b'.queues ∧
          (declareQueue e q b').1.delayQueues = b'.delayQueues ∧ (declareQueue e q b').2 = true) ∧
      (e.hook b'.emits = false → (declareQueue e q b').1.queues = b'.queues ++ [q] ∧
          (declareQueue e q b').1.log = b'.log ++ declareEvents q)) ∧
    ((∀ n, e.hook n = false) →
      (∀ q, q ∈ b'.queues ↔ q ∈ names) ∧ b'.log = b.log ++ b'.queues.flatMap declareEvents) := by
  intro b'
  have h : RunInv b b' := RunInv.run e names b ⟨h0.1 ▸ List.nodup_nil, by simp [h0], [], by simp, by simp [h0]⟩
  refine ⟨⟨h.nodup, h.delay, fun q hq => ?_, h.log⟩, fun q hq => ?_, fun hh => ?_⟩
  · simpa [h0] using declareQueues_sub e names b q hq
  · rw [declareQueue_eq]
    constructor <;> intro hk <;> simp [hq, hk]
  · obtain ⟨hm, Q, hQ, hl⟩ := declareQueues_noRaise hh names b
    simp only [h0, List.nil_append, List.not_mem_nil, false_or] at hm hQ
    exact ⟨hm, hQ ▸ hl⟩

theorem declareQueue_run_init :
    ((Broker.init Config.defaults []).queues = [] ∧ (Broker.init Config.defaults []).delayQueues = []) ∧
      ∀ q, q ∈ (declareQueues ⟨fun _ => none, fun _ => false⟩ (Broker.init Config.defaults [])
        ["default", "default"]).queues ↔ q ∈ ["default", "default"] :=
  ⟨⟨rfl, rfl⟩, ((declareQueue_run ⟨fun _ => none, fun _ => false⟩ _ ⟨rfl, rfl⟩ _).2.2 fun _ => rfl).1⟩

end Remoulade.Broker
