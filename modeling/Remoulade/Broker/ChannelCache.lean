import Mathlib.Logic.Function.Basic
import Remoulade.Broker.State
/-!
# The per-thread channel cache under every interleaving (rabbitmq.py:72-129)

Every thread runs the `channel` getter in steps (read `state.channel`; the `connection` getter
under the lock; `connection.channel()`; `confirm_deliveries()`; store), and any step of the getter
may raise instead, which returns the thread to `idle`. Between two steps another thread may run
its own, delete its channel or the shared connection, or `close`, and the server or the network
may close any channel or connection. `channel_cache_private`: in every reachable state no channel
is cached for, or was ever returned to, two threads, and with `confirm_delivery` every channel
returned or published on is in confirm mode. `getChannel_refines`: one uninterrupted getter run
is the single-thread `Wire.getChannel`.

| here | there |
| --- | --- |
| `Thread.cache` | the thread-local `state.channel` |
| `Sys.getConnection`, `Sys.delConnection` | the locked bodies of the `connection` getter and deleter (:77-80, :84-90) |
| `next` | one step of one thread, or of the environment |
| `Thread.returned`, `Thread.published` | what the getter returned to the thread, and the channels it published on (:247) |
-/
namespace Remoulade.ChannelCache

/-- Where a thread is in the `channel` getter (rabbitmq.py:92-104), in the method it calls
on the channel the getter returned, or in `close` (:119-129). -/
inductive Pc where
  | idle
  | connecting
  | opening (k : Nat)
  | confirming (c : Chan)
  | storing (c : Chan)
  | inUse (c : Chan)
  | closing
deriving DecidableEq, Repr

/-- The channel the getter is working on or returned. -/
def Pc.chan : Pc → Option Chan
  | confirming c | storing c | inUse c => some c
  | _ => none

/-- The channel the getter is about to cache or returned: with `confirm_delivery`,
`confirm_deliveries()` was called on it. -/
def Pc.ready : Pc → Option Chan
  | storing c | inUse c => some c
  | _ => none

/-- One thread: its position, its `state.channel`, and the channels the getter returned to
it and it published on. -/
structure Thread where
  pc : Pc
  cache : Option Chan
  returned : List Chan
  published : List Chan

structure Sys where
  connection : Option Nat
  th : Nat → Thread
  closedConns : List Nat
  closedChans : List Nat
  confirmed : List Nat
  fresh : Nat

def Sys.init : Sys := ⟨none, fun _ => ⟨.idle, none, [], []⟩, [], [], [], 0⟩

namespace Sys

/-- `channel.is_closed`: the channel or its connection was closed. -/
def isClosed (s : Sys) (c : Chan) : Bool := decide (c.id ∈ s.closedChans) || decide (c.conn ∈ s.closedConns)

/-- Thread `t` moves to `thr`. -/
def set (s : Sys) (t : Nat) (thr : Thread) : Sys := { s with th := Function.update s.th t thr }

/-- The body of the `connection` getter under the lock (rabbitmq.py:78-80). -/
def getConnection (s : Sys) : Sys × Nat :=
  match s.connection with
  | some k => if k ∈ s.closedConns then ({ s with connection := some s.fresh, fresh := s.fresh + 1 }, s.fresh) else (s, k)
  | none => ({ s with connection := some s.fresh, fresh := s.fresh + 1 }, s.fresh)

/-- The body of the `connection` deleter under the lock (rabbitmq.py:85-90). -/
def delConnection (s : Sys) : Sys :=
  match s.connection with
  | some k => { s with closedConns := k :: s.closedConns, connection := none }
  | none => s

end Sys

/-- What a thread does next, or what the server or the network does. -/
inductive Action where
  | get
  | connect
  | openChannel
  | confirm
  | store
  /-- The method on the returned channel; `basic.publish` when `isPublish`. -/
  | method (isPublish : Bool)
  | delChannel
  | delConnection
  | close
  | clear
  | closeChannel (i : Nat)
  | closeConnection (k : Nat)
  /-- The getter raises where it is: `UriConnection(self.url)` (:79), `connection.channel()`
  (:99) or `confirm_deliveries()` (:101). -/
  | raise
deriving DecidableEq, Repr

/-- One step of thread `t`; `none` when `t` is not where the action happens. An exception
of the getter returns the thread to `idle`, with `state.channel` as it was. -/
def next (cd : Bool) (s : Sys) (t : Nat) : Action → Option Sys
  | .get =>
    let thr := s.th t
    match thr.pc, thr.cache with
    | .idle, some c =>
      if s.isClosed c then some (s.set t { thr with pc := .connecting })
      else some (s.set t { thr with pc := .inUse c, returned := thr.returned ++ [c] })
    | .idle, none => some (s.set t { thr with pc := .connecting })
    | _, _ => none
  | .connect =>
    match (s.th t).pc with
    | .connecting => some (s.getConnection.1.set t { s.th t with pc := .opening s.getConnection.2 })
    | _ => none
  | .openChannel =>
    match (s.th t).pc with
    | .opening k =>
      if k ∈ s.closedConns then some (s.set t { s.th t with pc := .idle })
      else
        let c : Chan := ⟨s.fresh, k⟩
        some { s.set t { s.th t with pc := if cd then .confirming c else .storing c } with fresh := s.fresh + 1 }
    | _ => none
  | .confirm =>
    match (s.th t).pc with
    | .confirming c =>
      if s.isClosed c then some (s.set t { s.th t with pc := .idle })
      else some { s.set t { s.th t with pc := .storing c } with confirmed := c.id :: s.confirmed }
    | _ => none
  | .store =>
    let thr := s.th t
    match thr.pc with
    | .storing c => some (s.set t { thr with pc := .inUse c, cache := some c, returned := thr.returned ++ [c] })
    | _ => none
  | .method isPublish =>
    let thr := s.th t
    match thr.pc with
    | .inUse c => some (s.set t { thr with pc := .idle, published := if isPublish then thr.published ++ [c] else thr.published })
    | _ => none
  | .delChannel =>
    let thr := s.th t
    match thr.pc, thr.cache with
    | .idle, some c => some ({ s with closedChans := c.id :: s.closedChans }.set t { thr with cache := none })
    | .idle, none => some s
    | _, _ => none
  | .delConnection =>
    match (s.th t).pc with
    | .idle => some s.delConnection
    | _ => none
  | .close =>
    match (s.th t).pc with
    | .idle => some (s.delConnection.set t { s.th t with pc := .closing })
    | _ => none
  | .clear =>
    match (s.th t).pc with
    | .closing => some ({ s with connection := none }.set t { s.th t with pc := .idle })
    | _ => none
  | .closeChannel i => if i < s.fresh then some { s with closedChans := i :: s.closedChans } else none
  | .closeConnection k => if k < s.fresh then some { s with closedConns := k :: s.closedConns } else none
  | .raise =>
    match (s.th t).pc with
    | .connecting | .opening _ | .confirming _ => some (s.set t { s.th t with pc := .idle })
    | _ => none

inductive Reachable (cd : Bool) : Sys → Prop where
  | init : Reachable cd Sys.init
  | step {s s' : Sys} {t : Nat} {a : Action} : Reachable cd s → next cd s t a = some s' → Reachable cd s'

/-! ## What a step can do -/

namespace Thread

/-- Every channel the thread holds or held. -/
def holds (thr : Thread) : List Chan := thr.cache.toList ++ thr.pc.chan.toList ++ thr.returned ++ thr.published

/-- The channels that must be in confirm mode. -/
def ready (thr : Thread) : List Chan := thr.cache.toList ++ thr.pc.ready.toList ++ thr.returned ++ thr.published

end Thread

@[simp] theorem set_th (s : Sys) (t : Nat) (thr : Thread) : (s.set t thr).th = Function.update s.th t thr := rfl
@[simp] theorem set_fresh (s : Sys) (t : Nat) (thr : Thread) : (s.set t thr).fresh = s.fresh := rfl
@[simp] theorem set_confirmed (s : Sys) (t : Nat) (thr : Thread) : (s.set t thr).confirmed = s.confirmed := rfl

theorem getConnection_th (s : Sys) : s.getConnection.1.th = s.th ∧ s.fresh ≤ s.getConnection.1.fresh ∧
    s.getConnection.1.confirmed = s.confirmed := by
  unfold Sys.getConnection; split <;> (try split) <;> simp

theorem delConnection_th (s : Sys) : s.delConnection.th = s.th ∧ s.delConnection.fresh = s.fresh ∧
    s.delConnection.confirmed = s.confirmed := by
  unfold Sys.delConnection; split <;> simp

variable {cd : Bool} {s s' : Sys} {t : Nat} {a : Action}

/-- The shape every step has: only thread `t` moves, to `thr`, holding afterwards only what it
held or the channel it just opened, with a fresh id; a channel it must have in confirm mode
either was so before or has just been confirmed. -/
def Shape (cd : Bool) (s s' : Sys) (t : Nat) (thr : Thread) : Prop :=
  s'.th = Function.update s.th t thr ∧
    (∀ c ∈ thr.holds, c ∈ (s.th t).holds ∨ (c.id = s.fresh ∧ s.fresh < s'.fresh)) ∧
    (cd = true → ∀ c ∈ thr.ready, c ∈ (s.th t).ready ∨ c.id ∈ s'.confirmed) ∧
    ((∀ c, (s.th t).cache = some c → c ∈ (s.th t).returned) → ∀ c, thr.cache = some c → c ∈ thr.returned) ∧
    s.fresh ≤ s'.fresh ∧ s.confirmed ⊆ s'.confirmed

/-- A step that moves no thread. -/
theorem Shape.frame (hth : s'.th = s.th) (hf : s.fresh ≤ s'.fresh) (hc : s.confirmed ⊆ s'.confirmed) :
    Shape cd s s' t (s.th t) :=
  ⟨by rw [hth, Function.update_eq_self], fun _ h => .inl h, fun _ _ h => .inl h, id, hf, hc⟩

/-- A step that moves `t` to `thr`, which holds, and must have in confirm mode, only what `t`
did. -/
theorem Shape.sub (hth : s'.th = Function.update s.th t thr) (hh : thr.holds ⊆ (s.th t).holds)
    (hr : thr.ready ⊆ (s.th t).ready)
    (hc : (∀ c, (s.th t).cache = some c → c ∈ (s.th t).returned) → ∀ c, thr.cache = some c → c ∈ thr.returned)
    (hf : s.fresh ≤ s'.fresh) (hcf : s.confirmed ⊆ s'.confirmed) : Shape cd s s' t thr :=
  ⟨hth, fun _ h => .inl (hh h), fun _ _ h => .inl (hr h), hc, hf, hcf⟩

/-- A step that moves `t` to a position without a channel. -/
theorem Shape.retreat {p : Pc} (hth : s'.th = Function.update s.th t { s.th t with pc := p }) (hp : p.chan = none)
    (hf : s.fresh ≤ s'.fresh) (hcf : s.confirmed ⊆ s'.confirmed) : Shape cd s s' t { s.th t with pc := p } := by
  have hr : p.ready = none := by cases p <;> simp_all [Pc.chan, Pc.ready]
  refine .sub hth (fun c h => ?_) (fun c h => ?_) id hf hcf
  · simp only [Thread.holds, hp, Option.toList_none, List.append_nil, List.mem_append] at h ⊢; tauto
  · simp only [Thread.ready, hr, Option.toList_none, List.append_nil, List.mem_append] at h ⊢; tauto

/-- **What a step can do.** -/
theorem next_shape (h : next cd s t a = some s') : ∃ thr, Shape cd s s' t thr := by
  cases a <;> simp only [next] at h
  case get =>
    split at h
    · rename_i c _ hc
      split at h <;> cases h
      · exact ⟨_, .retreat rfl rfl le_rfl (List.Subset.refl _)⟩
      · refine ⟨_, .sub rfl (fun x hx => ?_) (fun x hx => ?_) (fun _ x hx => ?_) le_rfl (List.Subset.refl _)⟩
        all_goals simp_all [Thread.holds, Thread.ready, Pc.chan, Pc.ready]
        all_goals tauto
    · cases h; exact ⟨_, .retreat rfl rfl le_rfl (List.Subset.refl _)⟩
    · cases h
  case connect =>
    split at h <;> cases h
    exact ⟨_, .retreat (by rw [set_th, (getConnection_th s).1]) (by rfl) (getConnection_th s).2.1
      (by rw [set_confirmed, (getConnection_th s).2.2]; exact List.Subset.refl _)⟩
  case openChannel =>
    split at h
    · split at h <;> cases h
      · exact ⟨_, .retreat rfl rfl le_rfl (List.Subset.refl _)⟩
      · refine ⟨_, rfl, fun c hc => ?_, fun hcd c hc => ?_, fun _ c hc => ?_, by simp, by simp⟩
        all_goals cases cd <;> simp_all [Thread.holds, Thread.ready, Pc.chan, Pc.ready]
        all_goals rcases hc with hc | hc | hc <;> simp_all
    · cases h
  case confirm =>
    split at h
    · rename_i c hpc
      split at h <;> cases h
      · exact ⟨_, .retreat rfl rfl le_rfl (List.Subset.refl _)⟩
      · refine ⟨_, rfl, fun x hx => .inl ?_, fun _ x hx => ?_, id, le_rfl, List.subset_cons_self _ _⟩
        all_goals simp_all [Thread.holds, Thread.ready, Pc.chan, Pc.ready]
        all_goals tauto
    · cases h
  case store =>
    split at h <;> cases h
    rename_i c hpc
    refine ⟨_, .sub rfl (fun x hx => ?_) (fun x hx => ?_) (fun _ x hx => ?_) le_rfl (List.Subset.refl _)⟩
    all_goals simp_all [Thread.holds, Thread.ready, Pc.chan, Pc.ready]
    all_goals tauto
  case method isPublish =>
    split at h <;> cases h
    rename_i c hpc
    refine ⟨_, .sub rfl (fun x hx => ?_) (fun x hx => ?_) id le_rfl (List.Subset.refl _)⟩
    all_goals cases isPublish <;> simp_all [Thread.holds, Thread.ready, Pc.chan, Pc.ready]
    all_goals tauto
  case delChannel =>
    split at h
    · cases h
      refine ⟨_, .sub rfl (fun x hx => ?_) (fun x hx => ?_) (fun _ x hx => nomatch hx) le_rfl (List.Subset.refl _)⟩
      all_goals simp_all [Thread.holds, Thread.ready]
    · cases h; exact ⟨_, .frame rfl le_rfl (List.Subset.refl _)⟩
    · cases h
  case delConnection =>
    split at h <;> cases h
    exact ⟨_, .frame (delConnection_th s).1 (delConnection_th s).2.1.ge
      (by rw [(delConnection_th s).2.2]; exact List.Subset.refl _)⟩
  case close =>
    split at h <;> cases h
    exact ⟨_, .retreat (by rw [set_th, (delConnection_th s).1]) (by rfl) (delConnection_th s).2.1.ge
      (by rw [set_confirmed, (delConnection_th s).2.2]; exact List.Subset.refl _)⟩
  case clear =>
    split at h <;> cases h
    exact ⟨_, .retreat rfl rfl le_rfl (List.Subset.refl _)⟩
  case closeChannel | closeConnection =>
    split at h <;> cases h
    exact ⟨_, .frame rfl le_rfl (List.Subset.refl _)⟩
  case raise =>
    split at h <;> cases h <;> exact ⟨_, .retreat rfl rfl le_rfl (List.Subset.refl _)⟩

/-! ## The invariant -/

/-- What every reachable state keeps: a channel id is held by at most one thread, every held
id was allocated, a cached channel was returned to its thread, and with `confirm_delivery`
every channel a thread caches, was returned or published on is in confirm mode. -/
structure Inv (cd : Bool) (s : Sys) : Prop where
  owner : ∀ t t' c c', c ∈ (s.th t).holds → c' ∈ (s.th t').holds → c.id = c'.id → t = t'
  fresh : ∀ t c, c ∈ (s.th t).holds → c.id < s.fresh
  cached : ∀ t c, (s.th t).cache = some c → c ∈ (s.th t).returned
  confirmed : cd = true → ∀ t c, c ∈ (s.th t).ready → c.id ∈ s.confirmed

theorem Inv.init (cd : Bool) : Inv cd Sys.init :=
  ⟨by simp [Sys.init, Thread.holds, Pc.chan], by simp [Sys.init, Thread.holds, Pc.chan], by simp [Sys.init],
    by simp [Sys.init, Thread.ready, Pc.ready]⟩

variable {thr : Thread} {t' : Nat} {c : Chan}

theorem Shape.at_self (h : Shape cd s s' t thr) : s'.th t = thr := by rw [h.1, Function.update_same]

theorem Shape.at_other (h : Shape cd s s' t thr) (ht : t' ≠ t) : s'.th t' = s.th t' := by
  rw [h.1, Function.update_noteq ht]

/-- After a step of `t`, a thread holds what it held, or `t` holds the channel it opened. -/
theorem Shape.holds (h : Shape cd s s' t thr) (hc : c ∈ (s'.th t').holds) :
    c ∈ (s.th t').holds ∨ (t' = t ∧ c.id = s.fresh ∧ s.fresh < s'.fresh) := by
  by_cases ht : t' = t
  · subst ht
    rw [h.at_self] at hc
    exact (h.2.1 c hc).imp id fun h' => ⟨rfl, h'⟩
  · rw [h.at_other ht] at hc
    exact .inl hc

theorem Shape.ready (h : Shape cd s s' t thr) (hcd : cd = true) (hc : c ∈ (s'.th t').ready) :
    c ∈ (s.th t').ready ∨ c.id ∈ s'.confirmed := by
  by_cases ht : t' = t
  · subst ht
    rw [h.at_self] at hc
    exact h.2.2.1 hcd c hc
  · rw [h.at_other ht] at hc
    exact .inl hc

/-- **One step keeps the invariant.** -/
theorem Inv.step (h : Inv cd s) (hn : next cd s t a = some s') : Inv cd s' := by
  obtain ⟨thr, hs⟩ := next_shape hn
  have hf := hs.2.2.2.2.1
  refine ⟨fun t₁ t₂ c₁ c₂ h₁ h₂ he => ?_, fun t' c hc => ?_, fun t' c hc => ?_, fun hcd t' c hc => ?_⟩
  · rcases hs.holds h₁ with h₁ | ⟨rfl, e₁, -⟩ <;> rcases hs.holds h₂ with h₂ | ⟨rfl, e₂, -⟩
    · exact h.owner t₁ t₂ c₁ c₂ h₁ h₂ he
    · exact absurd (h.fresh _ _ h₁) (by omega)
    · exact absurd (h.fresh _ _ h₂) (by omega)
    · rfl
  · rcases hs.holds hc with hc | ⟨-, e, hlt⟩
    · exact lt_of_lt_of_le (h.fresh _ _ hc) hf
    · omega
  · by_cases ht : t' = t
    · subst ht
      rw [hs.at_self] at hc ⊢
      exact hs.2.2.2.1 (h.cached t') c hc
    · rw [hs.at_other ht] at hc ⊢
      exact h.cached t' c hc
  · rcases hs.ready hcd hc with hc | hc
    · exact hs.2.2.2.2.2 (h.confirmed hcd _ _ hc)
    · exact hc

theorem Reachable.inv (h : Reachable cd s) : Inv cd s := by
  induction h with
  | init => exact Inv.init cd
  | step _ hn ih => exact ih.step hn

/-- **The channel cache is thread-private, and in confirm mode when asked** (rabbitmq.py:92-117):
in every state reachable under every interleaving of the threads' getters, deleters, `close`
calls and methods, and of closures by the server or the network, no channel is cached for two
threads, none was ever returned to two threads, and a cached channel was returned to its own
thread (so a channel cached at any time was returned to that thread); with `confirm_delivery`
every channel the getter returned, and every channel a thread published on, had
`confirm_deliveries()` called on it. -/
theorem channel_cache_private (cd : Bool) (s : Sys) (h : Reachable cd s) :
    (∀ t t' c c', (s.th t).cache = some c → (s.th t').cache = some c' → c.id = c'.id → t = t') ∧
      (∀ t t' c c', c ∈ (s.th t).returned → c' ∈ (s.th t').returned → c.id = c'.id → t = t') ∧
      (∀ t c, (s.th t).cache = some c → c ∈ (s.th t).returned) ∧
      (cd = true → ∀ t c, c ∈ (s.th t).returned → c.id ∈ s.confirmed) ∧
      (cd = true → ∀ t c, c ∈ (s.th t).published → c.id ∈ s.confirmed) := by
  have hi := h.inv
  refine ⟨fun t t' c c' hc hc' => hi.owner t t' c c' (by simp [Thread.holds, hc]) (by simp [Thread.holds, hc']),
    fun t t' c c' hc hc' => hi.owner t t' c c' (by simp [Thread.holds, hc]) (by simp [Thread.holds, hc']),
    hi.cached, fun hcd t c hc => hi.confirmed hcd t c (by simp [Thread.ready, hc]),
    fun hcd t c hc => hi.confirmed hcd t c (by simp [Thread.ready, hc])⟩

/-- Steps of thread `t`, one after the other, with no other thread in between. -/
def run (cd : Bool) (s : Sys) (t : Nat) : List Action → Option Sys
  | [] => some s
  | a :: acts => (next cd s t a).bind fun s' => run cd s' t acts

theorem Reachable.run : ∀ {s : Sys} {acts : List Action}, Reachable cd s → run cd s t acts = some s' → Reachable cd s'
  | _, [], h, hr => by cases hr; exact h
  | _, a :: acts, h, hr => by
    simp only [ChannelCache.run, Option.bind_eq_some] at hr
    obtain ⟨s₁, h₁, h₂⟩ := hr
    exact Reachable.run (h.step h₁) h₂

/-- Thread `0` runs its getter once, with `confirm_delivery`. -/
def oneGet : Sys := (run true Sys.init 0 [.get, .connect, .openChannel, .confirm, .store]).getD Sys.init

theorem channel_cache_private_oneGet :
    Reachable true oneGet ∧ ∀ t c, c ∈ (oneGet.th t).returned → c.id ∈ oneGet.confirmed :=
  have h : Reachable true oneGet :=
    Reachable.init.run (show run true Sys.init 0 [.get, .connect, .openChannel, .confirm, .store] = some oneGet from rfl)
  ⟨h, (channel_cache_private true oneGet h).2.2.2.1 rfl⟩

/-! ## One getter run is the single-thread getter -/

/-- What thread `t` sees: the wire of the single-thread model. -/
def Sys.view (s : Sys) (t : Nat) : Wire :=
  ⟨s.connection, (s.th t).cache, s.closedConns, s.closedChans, s.confirmed, s.fresh⟩

theorem getConnection_set (s : Sys) (t : Nat) (thr : Thread) :
    (s.set t thr).getConnection = (s.getConnection.1.set t thr, s.getConnection.2) := by
  simp only [Sys.getConnection, Sys.set]
  cases hc : s.connection with
  | none => rfl
  | some k => by_cases hk : k ∈ s.closedConns <;> simp [hk, hc]

theorem view_getConnection (s : Sys) (t : Nat) :
    s.getConnection.1.view t = (s.view t).getConnection.1 ∧ s.getConnection.2 = (s.view t).getConnection.2 := by
  unfold Sys.getConnection Wire.getConnection Wire.openConnection Sys.view
  split <;> (try split) <;> simp_all

@[simp] theorem set_set (s : Sys) (t : Nat) (thr thr' : Thread) : (s.set t thr).set t thr' = s.set t thr' := by
  simp [Sys.set]

@[simp] theorem set_connection (s : Sys) (t : Nat) (thr : Thread) : (s.set t thr).connection = s.connection := rfl
@[simp] theorem set_closedConns (s : Sys) (t : Nat) (thr : Thread) : (s.set t thr).closedConns = s.closedConns := rfl
@[simp] theorem set_closedChans (s : Sys) (t : Nat) (thr : Thread) : (s.set t thr).closedChans = s.closedChans := rfl

theorem next_connect (h : (s.th t).pc = .connecting) :
    next cd s t .connect = some (s.getConnection.1.set t { s.th t with pc := .opening s.getConnection.2 }) := by
  simp [next, h]

theorem next_openChannel {k : Nat} (h : (s.th t).pc = .opening k) (hk : k ∉ s.closedConns) :
    next cd s t .openChannel =
      some { s.set t { s.th t with pc := if cd then .confirming ⟨s.fresh, k⟩ else .storing ⟨s.fresh, k⟩ } with
        fresh := s.fresh + 1 } := by
  simp [next, h, hk]

theorem next_confirm (h : (s.th t).pc = .confirming c) (hc : s.isClosed c = false) :
    next cd s t .confirm = some { s.set t { s.th t with pc := .storing c } with confirmed := c.id :: s.confirmed } := by
  simp [next, h, hc]

theorem next_store (h : (s.th t).pc = .storing c) :
    next cd s t .store =
      some (s.set t { s.th t with pc := .inUse c, cache := some c, returned := (s.th t).returned ++ [c] }) := by
  simp [next, h]

/-- **Refinement**: from `idle`, thread `t` alone runs its getter to the end, and the result is
what `Wire.getChannel` computes on its view; no other thread changes. -/
theorem getChannel_refines (cd : Bool) (s : Sys) (t : Nat) (hpc : (s.th t).pc = .idle) (hw : (s.view t).Wf) :
    ∃ acts s', run cd s t acts = some s' ∧ s'.view t = (Wire.getChannel cd (s.view t)).1 ∧
      (s'.th t).pc = .inUse (Wire.getChannel cd (s.view t)).2 ∧
      (s'.th t).returned = (s.th t).returned ++ [(Wire.getChannel cd (s.view t)).2] ∧
      ∀ t', t' ≠ t → s'.th t' = s.th t' := by
  by_cases hhit : ∃ c, (s.th t).cache = some c ∧ s.isClosed c = false
  · obtain ⟨c, hc, hcl⟩ := hhit
    have hg : Wire.getChannel cd (s.view t) = (s.view t, c) := by
      simp only [Wire.getChannel, Sys.view, hc]
      simp_all [Wire.isClosed, Sys.isClosed]
    refine ⟨[.get], _, by simp [run, next, hpc, hc, hcl]; rfl, ?_⟩
    rw [hg]
    exact ⟨by simp [Sys.view, Sys.set, hc], by simp [Sys.set], by simp [Sys.set],
      fun t' ht => by simp [Sys.set, Function.update_noteq ht]⟩
  · push_neg at hhit
    have hget : next cd s t .get = some (s.set t { s.th t with pc := .connecting }) := by
      cases hc : (s.th t).cache with
      | none => simp [next, hpc, hc]
      | some c => simp [next, hpc, hc, hhit c hc]
    have hg : Wire.getChannel cd (s.view t) = Wire.openChannel cd (s.view t) := by
      cases hc : (s.th t).cache with
      | none => simp [Wire.getChannel, Sys.view, hc]
      | some c =>
        have := hhit c hc
        simp_all [Wire.getChannel, Sys.view, Wire.isClosed, Sys.isClosed]
    obtain ⟨hv₁, hv₂⟩ := view_getConnection s t
    obtain ⟨hw', -, hkc, -, -, -, -, -, -⟩ := Wire.getConnection_spec hw
    rw [← hv₁] at hw' hkc
    rw [← hv₂] at hkc
    have hfc : s.getConnection.1.fresh ∉ s.getConnection.1.closedChans := fun h => lt_irrefl _ (hw'.closedChans_lt _ h)
    replace hkc : s.getConnection.2 ∉ s.getConnection.1.closedConns := hkc
    refine ⟨[.get, .connect, .openChannel] ++ (if cd then [.confirm] else []) ++ [.store], ?_⟩
    cases cd <;>
      simp [run, hget, next_connect, next_openChannel, next_confirm, Sys.isClosed, hfc, next_store, getConnection_set,
        hkc] <;>
      rw [hg] <;> simp only [Wire.openChannel, ← hv₁, ← hv₂] <;> simp [Sys.view, Sys.set, (getConnection_th s).1] <;>
      exact fun t' ht => Function.update_noteq ht _ s.th

theorem getChannel_refines_init :
    (Sys.init.th 0).pc = .idle ∧ (Sys.init.view 0).Wf ∧
      ∃ acts s', run true Sys.init 0 acts = some s' ∧ s'.view 0 = (Wire.getChannel true (Sys.init.view 0)).1 :=
  have hw : (Sys.init.view 0).Wf := ⟨nofun, nofun, nofun, nofun, nofun⟩
  ⟨rfl, hw, let ⟨acts, s', h₁, h₂, _⟩ := getChannel_refines true Sys.init 0 rfl hw; ⟨acts, s', h₁, h₂⟩⟩

end Remoulade.ChannelCache
