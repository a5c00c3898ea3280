import Remoulade.Broker.State
/-!
# What the adapter logs: failed methods, their discard, and no reuse (rabbitmq.py:256-262)

`Extends b b' L` says that `b'` continues `b` with the events `L`: the server holds what it
held and the queues the completed declarations of `L` created, nothing closed in `b` is
open again in `b'`, every method of `L` ran on a channel open when `L` began, and every
method of `L` that failed left its channel (channel-level error) or its connection
(connection-level error) closed. `Extends.trans` chains two continuations, and the last two
facts together give `L.Pairwise NotReusing`: no method runs on a channel or connection
that failed before it.

`Paired` and `Discarded` are the two shapes `enqueue` gives its log: every `before_enqueue`
comes right before a `basic.publish` (and every publish right after one), and every failed
method is followed at once by the `close()` of the deleter that discards it.
-/
namespace Remoulade

namespace Event

/-- A method that raised. -/
def isFailure : Event → Bool
  | call _ _ (some _) => true
  | _ => false

/-- A `basic.publish` that completed. -/
def isPublished : Event → Bool
  | call (.basicPublish ..) _ none => true
  | _ => false

/-- A `basic.publish`, completed or not. -/
def isPublish : Event → Bool
  | call (.basicPublish ..) _ _ => true
  | _ => false

/-- A `queue.declare` that completed. -/
def isDeclared : Event → Bool
  | call (.queueDeclare ..) _ none => true
  | _ => false

def isBeforeEnqueue : Event → Bool
  | before (.enqueue ..) => true
  | _ => false

def isAfterEnqueue : Event → Bool
  | after (.enqueue ..) => true
  | _ => false

def isCall : Event → Bool
  | call .. => true
  | _ => false

/-- The `close()` by which the `except` clause discards what a failed method used. -/
def discardEvent : Event → Option Event
  | call _ c (some .channel) => some (closeChannel c)
  | call _ c (some .connection) => some (closeConnection c.conn)
  | _ => none

/-- The queue a completed `queue.declare` creates on the server. -/
def created : Event → Option String
  | call (.queueDeclare q _ _) _ none => some q
  | _ => none

/-- What a failed method used is closed in `w`. -/
def ClosedIn (w : Wire) : Event → Prop
  | call _ c (some .channel) => c.id ∈ w.closedChans
  | call _ c (some .connection) => c.conn ∈ w.closedConns
  | _ => True

/-- A method runs on a channel open in `w`. -/
def OpenIn (w : Wire) : Event → Prop
  | call _ c _ => w.isClosed c = false
  | _ => True

/-- `b` does not run on the channel, or on the connection, whose failure `a` records. -/
def NotReusing : Event → Event → Prop
  | call _ c (some .channel), call _ c' _ => c' ≠ c
  | call _ c (some .connection), call _ c' _ => c'.conn ≠ c.conn
  | _, _ => True

/-- The `queue.declare` an event sends, completed or not. -/
def declaration : Event → Option Method
  | call (.queueDeclare q d a) _ _ => some (.queueDeclare q d a)
  | _ => none

/-- A `close()` of the deleters. -/
def isClose : Event → Bool
  | closeChannel _ | closeConnection _ => true
  | _ => false

/-- What the `close()` of a deleter closed is closed in `w`. -/
def ShutIn (w : Wire) : Event → Prop
  | closeChannel c => c.id ∈ w.closedChans
  | closeConnection k => k ∈ w.closedConns
  | _ => True

/-- `b` does not run on the channel, or on the connection, that the `close()` of `a` closed. -/
def StaysClosed : Event → Event → Prop
  | closeChannel c, call _ c' _ => c'.id ≠ c.id
  | closeConnection k, call _ c' _ => c'.conn ≠ k
  | _, _ => True

variable {w w' : Wire} {a ev : Event}

/-- A completed declaration is neither a failure nor part of a publish. -/
theorem isDeclared_quiet (h : ev.isDeclared) :
    ev.isFailure = false ∧ ev.isPublished = false ∧ ev.isPublish = false ∧
      ev.isBeforeEnqueue = false ∧ ev.isAfterEnqueue = false := by
  rcases ev with _ | _ | ⟨_ | _ | _ | _ | _, _, _ | _⟩ | _ | _ <;> simp_all [isDeclared, isFailure, isPublished, isPublish, isBeforeEnqueue, isAfterEnqueue]

theorem declares_eq (m : Method) (c : Chan) (r : Option AMQPError) :
    Broker.declares m r = (call m c r).created.toList := by
  rcases m with _ | _ | _ | _ | _ <;> rcases r with _ | _ <;> rfl

theorem created_eq_none (h : ev.isCall = false) : ev.created = none := by
  rcases ev with _ | _ | _ | _ | _ <;> simp_all [isCall, created]

theorem discardEvent_eq_none (h : ev.isFailure = false) : ev.discardEvent = none := by
  rcases ev with _ | _ | ⟨_, _, _ | _⟩ | _ | _ <;> simp_all [isFailure, discardEvent]

theorem ClosedIn.mono (h : ev.ClosedIn w) (hc : w.closedChans ⊆ w'.closedChans)
    (hk : w.closedConns ⊆ w'.closedConns) : ev.ClosedIn w' := by
  rcases ev with _ | _ | ⟨_, _, _ | ⟨_ | _⟩⟩ | _ | _
  all_goals first | trivial | exact hk h | exact hc h

theorem OpenIn.anti (h : ev.OpenIn w') (hc : w.closedChans ⊆ w'.closedChans)
    (hk : w.closedConns ⊆ w'.closedConns) : ev.OpenIn w := by
  rcases ev with _ | _ | ⟨_, c, _⟩ | _ | _
  all_goals try trivial
  simp only [OpenIn, Wire.isClosed_eq_false] at h ⊢
  exact ⟨fun h' => h.1 (hc h'), fun h' => h.2 (hk h')⟩

theorem OpenIn.of_quiet (h : ev.isCall = false) : ev.OpenIn w := by
  rcases ev with _ | _ | _ | _ | _ <;> trivial

theorem ClosedIn.of_quiet (h : ev.isCall = false) : ev.ClosedIn w := by
  rcases ev with _ | _ | _ | _ | _ <;> trivial

theorem ShutIn.mono (h : ev.ShutIn w) (hc : w.closedChans ⊆ w'.closedChans)
    (hk : w.closedConns ⊆ w'.closedConns) : ev.ShutIn w' := by
  rcases ev with _ | _ | _ | _ | _
  all_goals first | trivial | exact hc h | exact hk h

theorem ShutIn.of_isClose (h : ev.isClose = false) : ev.ShutIn w := by
  rcases ev with _ | _ | _ | _ | _ <;> trivial

theorem staysClosed_of_isClose (h : a.isClose = false) (ev : Event) : StaysClosed a ev := by
  rcases a with _ | _ | _ | _ | _ <;> trivial

/-- What a deleter closed is not what an open method runs on. -/
theorem staysClosed_of (ha : a.ShutIn w) (hb : ev.OpenIn w) : StaysClosed a ev := by
  rcases a with _ | _ | _ | c | k <;> rcases ev with _ | _ | ⟨_, c', _⟩ | _ | _
  all_goals simp only [StaysClosed, OpenIn, ShutIn, Wire.isClosed_eq_false] at ha hb ⊢
  all_goals first | trivial | (intro h; rw [h] at hb; exact hb.1 ha) | (intro h; rw [h] at hb; exact hb.2 ha)

/-- A failed resource that is closed is not what an open method runs on. -/
theorem notReusing_of (ha : a.ClosedIn w) (hb : ev.OpenIn w) : NotReusing a ev := by
  rcases a with _ | _ | ⟨_, c, _ | ⟨_ | _⟩⟩ | _ | _
  all_goals rcases ev with _ | _ | ⟨_, c', _⟩ | _ | _
  all_goals simp only [NotReusing, OpenIn, ClosedIn, Wire.isClosed_eq_false] at ha hb ⊢
  all_goals first | trivial | (rintro rfl; simp_all) | (intro h; rw [h] at hb; exact hb.2 ha)

end Event

/-! ## The shapes of an `enqueue` log -/

/-- Every `before_enqueue` is followed at once by a `basic.publish`, and every
`basic.publish` comes right after a `before_enqueue`. -/
def Paired : List Event → Bool
  | [] => true
  | [a] => !a.isBeforeEnqueue && !a.isPublish
  | a :: b :: l => if a.isBeforeEnqueue then b.isPublish && Paired l else !a.isPublish && Paired (b :: l)

/-- Every failed method is followed at once by the `close()` that discards it. -/
def Discarded : List Event → Bool
  | [] => true
  | a :: l => (a.discardEvent.all fun d => l.head? == some d) && Discarded l

theorem Paired.append {l₁ l₂ : List Event} (h₁ : Paired l₁) (h₂ : Paired l₂) : Paired (l₁ ++ l₂) := by
  induction l₁ using Paired.induct with
  | case1 => exact h₂
  | case2 a =>
    simp only [Paired, Bool.and_eq_true, Bool.not_eq_true'] at h₁
    cases l₂ with
    | nil => simpa [Paired] using h₁
    | cons b l => simp [Paired, h₁, h₂]
  | case3 a b l hb ih =>
    simp only [Paired, hb, if_true, Bool.and_eq_true] at h₁
    simp [Paired, hb, h₁.1, ih h₁.2]
  | case4 a b l hb ih =>
    simp only [Bool.not_eq_true] at hb
    simp only [Paired, hb, Bool.false_eq_true, ite_false, Bool.and_eq_true, Bool.not_eq_true'] at h₁
    simp only [List.cons_append, Paired, hb] at ih ⊢
    simp [h₁.1, ih h₁.2]

/-- A paired log holds as many `before_enqueue` emissions as publish attempts. -/
theorem Paired.count_eq {l : List Event} (h : Paired l) :
    l.countP Event.isBeforeEnqueue = l.countP Event.isPublish := by
  induction l using Paired.induct with
  | case1 => rfl
  | case2 a =>
    simp only [Paired, Bool.and_eq_true, Bool.not_eq_true'] at h
    simp [h.1, h.2]
  | case3 a b l hb ih =>
    simp only [Paired, hb, if_true, Bool.and_eq_true] at h
    have ha : a.isPublish = false := by revert hb; rcases a with _ | _ | ⟨⟨⟩⟩ | _ | _ <;> simp [Event.isBeforeEnqueue, Event.isPublish]
    have hb' : b.isBeforeEnqueue = false := by revert h; rcases b with _ | _ | ⟨⟨⟩⟩ | _ | _ <;> simp [Event.isBeforeEnqueue, Event.isPublish]
    simp [List.countP_cons, hb, ha, h.1, hb', ih h.2]
  | case4 a b l hb ih =>
    simp only [Bool.not_eq_true] at hb
    simp only [Paired, hb, Bool.false_eq_true, ite_false, Bool.and_eq_true, Bool.not_eq_true'] at h
    have := ih h.2
    simp only [List.countP_cons] at this ⊢
    simpa [hb, h.1] using this

theorem Discarded.append {l₁ l₂ : List Event} (h₁ : Discarded l₁) (h₂ : Discarded l₂)
    (hl : ∀ a ∈ l₁.getLast?, a.discardEvent = none) : Discarded (l₁ ++ l₂) := by
  induction l₁ with
  | nil => exact h₂
  | cons a l ih =>
    simp only [Discarded, Bool.and_eq_true] at h₁
    cases l with
    | nil => simp_all [Discarded]
    | cons b l' =>
      have ih' := ih h₁.2 fun x hx => hl x (by simpa using hx)
      simp only [List.cons_append, Discarded, Bool.and_eq_true, List.head?_cons] at h₁ ih' ⊢
      exact ⟨h₁.1, ih'⟩

theorem Paired.of_quiet {l : List Event} (h : ∀ ev ∈ l, ev.isBeforeEnqueue = false ∧ ev.isPublish = false) :
    Paired l := by
  induction l using Paired.induct with
  | case1 => rfl
  | case2 a => simp [Paired, h a (by simp)]
  | case3 a b l hb => simp [(h a (by simp)).1] at hb
  | case4 a b l hb ih => simp [Paired, (h a (by simp)).1, (h a (by simp)).2, ih fun ev hev => h ev (by simp_all)]

theorem Discarded.of_noFailure {l : List Event} (h : l.countP Event.isFailure = 0) : Discarded l := by
  induction l with
  | nil => rfl
  | cons a l ih =>
    rw [List.countP_cons] at h
    have ha : a.isFailure = false := by by_contra ha; simp_all
    simp [Discarded, Event.discardEvent_eq_none ha, ih (by simp_all)]

/-! ## Continuations of a broker state -/

/-- `b'` continues `b` with the events `L` (see the module doc). -/
structure Extends (b b' : Broker) (L : List Event) : Prop where
  log : b'.log = b.log ++ L
  server : ∀ x, x ∈ b'.server ↔ x ∈ b.server ∨ x ∈ L.filterMap Event.created
  chans : b.wire.closedChans ⊆ b'.wire.closedChans
  conns : b.wire.closedConns ⊆ b'.wire.closedConns
  opened : ∀ ev ∈ L, ev.OpenIn b.wire
  failed : ∀ ev ∈ L, ev.ClosedIn b'.wire
  noReuse : L.Pairwise Event.NotReusing

namespace Extends

variable {b b' b'' : Broker} {L L' : List Event}

theorem refl (b : Broker) : Extends b b [] :=
  ⟨by simp, by simp, List.Subset.refl _, List.Subset.refl _, by simp, by simp, List.Pairwise.nil⟩

/-- Only the log, the server and the wire matter. -/
theorem congr (h : Extends b b' L) (hlog : b''.log = b'.log) (hs : b''.server = b'.server)
    (hw : b''.wire = b'.wire) : Extends b b'' L :=
  ⟨hlog.trans h.log, hs ▸ h.server, hw ▸ h.chans, hw ▸ h.conns, h.opened, hw ▸ h.failed, h.noReuse⟩

theorem trans (h₁ : Extends b b' L) (h₂ : Extends b' b'' L') : Extends b b'' (L ++ L') where
  log := by rw [h₂.log, h₁.log, List.append_assoc]
  server x := by rw [h₂.server, h₁.server, List.filterMap_append, List.mem_append, or_assoc]
  chans := List.Subset.trans h₁.chans h₂.chans
  conns := List.Subset.trans h₁.conns h₂.conns
  opened ev hev := (List.mem_append.1 hev).elim (h₁.opened ev) fun h => (h₂.opened ev h).anti h₁.chans h₁.conns
  failed ev hev := (List.mem_append.1 hev).elim (fun h => (h₁.failed ev h).mono h₂.chans h₂.conns) (h₂.failed ev)
  noReuse := List.pairwise_append.2 ⟨h₁.noReuse, h₂.noReuse,
    fun _ ha _ hc => Event.notReusing_of (h₁.failed _ ha) (h₂.opened _ hc)⟩

/-- What the server and the log's completed declarations hold only grows. -/
theorem created_mono (hx : Extends b b' L) {x : String} :
    (x ∈ b.server → x ∈ b'.server) ∧ (x ∈ b.log.filterMap Event.created → x ∈ b'.log.filterMap Event.created) :=
  ⟨fun h => (hx.server x).2 (.inl h), fun h => by simp only [hx.log, List.filterMap_append, List.mem_append]; exact .inl h⟩

/-- A step that runs no method, leaves the server alone and closes nothing back open. -/
theorem quiet (hlog : b'.log = b.log ++ L) (hs : b'.server = b.server) (hc : b.wire.closedChans ⊆ b'.wire.closedChans)
    (hk : b.wire.closedConns ⊆ b'.wire.closedConns) (hL : ∀ ev ∈ L, ev.isCall = false) :
    Extends b b' L where
  log := hlog
  server x := by
    rw [hs, List.filterMap_eq_nil_iff.2 fun ev h => Event.created_eq_none (hL ev h)]
    simp
  chans := hc
  conns := hk
  opened ev h := .of_quiet (hL ev h)
  failed ev h := .of_quiet (hL ev h)
  noReuse := List.pairwise_of_forall_mem_list fun a ha _ _ => by
    have := hL a ha
    rcases a with _ | _ | _ | _ | _ <;> trivial

/-- One method on a channel open in `b`. -/
theorem invoke {c : Chan} (hc : b.wire.isClosed c = false) (e : Env) (m : Method) :
    Extends b (b.invoke e c m).1 [Event.call m c (e.amqp b.calls)] where
  log := rfl
  server x := by simp [Broker.invoke, Event.declares_eq m c, or_comm]
  chans := Wire.closedChans_sub_fail _ _ _
  conns := Wire.closedConns_sub_fail _ _ _
  opened := by simpa [Event.OpenIn] using hc
  failed := by
    simp only [List.mem_singleton, forall_eq, Broker.invoke]
    rcases e.amqp b.calls with _ | _ | _ <;> simp [Event.ClosedIn, Wire.fail, Wire.closeConn, Wire.closeChan]
  noReuse := List.pairwise_singleton _ _

theorem getChannel (hw : b.wire.Wf) : Extends b b.getChannel.1 [] := by
  obtain ⟨-, -, -, -, hcc, hcs, -⟩ := Wire.getChannel_spec b.cfg.confirmDelivery hw
  exact quiet (by simp [Broker.getChannel]) rfl (by simp [hcs]) (by simp [hcc]) (by simp)

theorem onChannel (hw : b.wire.Wf) (e : Env) (m : Method) :
    Extends b (b.onChannel e m).1 [Event.call m b.getChannel.2 (e.amqp b.calls)] := by
  obtain ⟨-, -, -, hcl, -⟩ := Wire.getChannel_spec b.cfg.confirmDelivery hw
  exact (getChannel hw).trans (invoke hcl e m)

theorem emitBefore (e : Env) (s : Signal) : Extends b (b.emitBefore e s).1 [Event.before s] :=
  quiet rfl rfl (List.Subset.refl _) (List.Subset.refl _) (by simp [Event.isCall])

theorem emitAfter (s : Signal) : Extends b (b.emitAfter s) [Event.after s] :=
  quiet rfl rfl (List.Subset.refl _) (List.Subset.refl _) (by simp [Event.isCall])

theorem delChannel : Extends b b.delChannel (b.wire.channel.map Event.closeChannel).toList :=
  quiet rfl rfl Wire.closedChans_sub_delChannel (by unfold Broker.delChannel Wire.delChannel; split <;> simp [Wire.closeChan])
    (by cases b.wire.channel <;> simp [Event.isCall])

theorem delConnection : Extends b b.delConnection (b.wire.connection.map Event.closeConnection).toList :=
  quiet rfl rfl (by unfold Broker.delConnection Wire.delConnection; split <;> simp [Wire.closeConn])
    Wire.closedConns_sub_delConnection (by cases b.wire.connection <;> simp [Event.isCall])

end Extends

end Remoulade
