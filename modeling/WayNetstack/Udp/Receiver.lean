import WayNetstack.Session.Manager
import WayNetstack.Lib.Runs
import Mathlib.Data.List.Infix

/-!
# The receiver of a session

`WayUdpSession::recv` as a task beside the runner, which pushes datagrams into the
session's queue and in the end closes it. The receiver pops, tests the flag, creates its
`Notified` future and awaits it; `UdpQueue::push` and `mark_closed` each change the queue
first and call `notify_waiters` afterwards. The tasks share nothing but the queue, so that
a run is any interleaving of these steps.

Two things can go wrong, both because the receiver looks at the queue in two steps and
creates its future only after them:

* a call of `notify_waiters` between the look and the future wakes nobody, and the
  receiver sleeps on what it has not seen (`receiver_not_asleep`);
* a datagram and the close may both come between the `pop` and the test, and `recv` then
  ends the session with the datagram unread (`session_delivered`).

What `recv` does return is always what was pushed, in order and without a gap.
-/

namespace WayNetstack

open Lib

/-! ### The tasks -/

/-- Where the receiver is in `recv`. -/
inductive RecvPhase where
  /-- No call of `recv` is running. -/
  | idle
  /-- At the top of the loop. -/
  | popping
  /-- `pop` has given nothing. -/
  | testing
  /-- `is_closed` was false. -/
  | subscribing
  /-- Awaiting the future; whether it was woken. -/
  | parked (woken : Bool)
  deriving DecidableEq

/-- Whether the future exists. -/
def RecvPhase.isParked : RecvPhase → Bool
  | .parked _ => true
  | _ => false

/-- `queue.notify.notify_waiters()`: the future that exists is woken, nothing is stored. -/
def RecvPhase.notifyWaiters : RecvPhase → RecvPhase
  | .parked _ => .parked true
  | p => p

/-- A queue with its receiver and its producer. -/
structure Receiver where
  queue : UdpQueue
  phase : RecvPhase
  /-- The producer has changed the queue and not yet called `notify_waiters`. -/
  notifying : Bool
  deriving DecidableEq

/-- A step of the receiver or of the producer. -/
inductive RecvAct where
  /-- `recv` is called. -/
  | call
  /-- `self.queue.pop()`. -/
  | pop
  /-- `self.queue.is_closed()`. -/
  | test
  /-- `self.queue.notify.notified()`. -/
  | subscribe
  /-- The future is ready: back to the top of the loop. -/
  | resume
  /-- The call is dropped while it awaits. -/
  | cancel
  /-- The first step of `UdpQueue::push`. -/
  | push (data : Bytes)
  /-- The first step of `UdpQueue::mark_closed`. -/
  | markClosed
  /-- The second step of either: `notify_waiters`. -/
  | notify
  deriving DecidableEq

namespace Receiver

/-- The session as it is made. -/
def init : Receiver := ⟨.new, .idle, false⟩

/-- What a step does, if it can be taken. -/
def step (s : Receiver) : RecvAct → Option Receiver
  | .call => if s.phase = .idle then some { s with phase := .popping } else none
  | .pop =>
    if s.phase = .popping then some { s with
      queue := s.queue.pop.2
      phase := if s.queue.pop.1.isSome then .idle else .testing }
    else none
  | .test =>
    if s.phase = .testing then some { s with phase := if s.queue.closed then .idle else .subscribing }
    else none
  | .subscribe => if s.phase = .subscribing then some { s with phase := .parked false } else none
  | .resume => if s.phase = .parked true then some { s with phase := .popping } else none
  | .cancel =>
    match s.phase with
    | .parked _ => some { s with phase := .idle }
    | _ => none
  -- the producer finishes one operation before it starts the next
  | .push data => if s.notifying then none else some { s with queue := s.queue.push data, notifying := true }
  | .markClosed => if s.notifying then none else some { s with queue := s.queue.markClosed, notifying := true }
  | .notify =>
    if s.notifying then some { s with phase := s.phase.notifyWaiters, notifying := false } else none

/-- What `recv` returns at a step, if it returns. -/
def returns (s : Receiver) : RecvAct → Option (Option Bytes)
  | .pop => s.queue.pop.1.map some
  | .test => if s.queue.closed then some none else none
  | _ => none

/-- The tasks as a labelled system. -/
def Steps : System Receiver RecvAct := fun s a t => s.step a = some t

/-- What a step did, and when it can be taken. -/
inductive Turn (s : Receiver) : RecvAct → Receiver → Prop
  | call (hp : s.phase = .idle) : Turn s .call { s with phase := .popping }
  | took {data : Bytes} {rest : List Bytes} (hp : s.phase = .popping) (hq : s.queue.inner = data :: rest) :
    Turn s .pop { s with queue := { s.queue with inner := rest }, phase := .idle }
  | empty (hp : s.phase = .popping) (hq : s.queue.inner = []) : Turn s .pop { s with phase := .testing }
  | ended (hp : s.phase = .testing) (hc : s.queue.closed = true) : Turn s .test { s with phase := .idle }
  | goesOn (hp : s.phase = .testing) (hc : s.queue.closed = false) :
    Turn s .test { s with phase := .subscribing }
  | subscribe (hp : s.phase = .subscribing) : Turn s .subscribe { s with phase := .parked false }
  | resume (hp : s.phase = .parked true) : Turn s .resume { s with phase := .popping }
  | cancel {woken : Bool} (hp : s.phase = .parked woken) : Turn s .cancel { s with phase := .idle }
  | push (data : Bytes) (hn : s.notifying = false) :
    Turn s (.push data) { s with queue := s.queue.push data, notifying := true }
  | markClosed (hn : s.notifying = false) :
    Turn s .markClosed { s with queue := s.queue.markClosed, notifying := true }
  | notify (hn : s.notifying = true) :
    Turn s .notify { s with phase := s.phase.notifyWaiters, notifying := false }

variable {s t : Receiver} {a : RecvAct}

theorem turn_of_step (h : s.step a = some t) : s.Turn a t := by
  cases a with
  | call =>
    simp only [step, Option.ite_none_right_eq_some, Option.some.injEq] at h
    obtain ⟨hp, rfl⟩ := h
    exact .call hp
  | pop =>
    simp only [step, Option.ite_none_right_eq_some, Option.some.injEq] at h
    obtain ⟨hp, rfl⟩ := h
    obtain ⟨⟨inner, closed⟩, phase, notifying⟩ := s
    cases inner with
    | nil => exact .empty hp rfl
    | cons data rest => exact .took hp rfl
  | test =>
    simp only [step, Option.ite_none_right_eq_some, Option.some.injEq] at h
    obtain ⟨hp, rfl⟩ := h
    cases hc : s.queue.closed with
    | true => exact .ended hp hc
    | false => exact .goesOn hp hc
  | subscribe =>
    simp only [step, Option.ite_none_right_eq_some, Option.some.injEq] at h
    obtain ⟨hp, rfl⟩ := h
    exact .subscribe hp
  | resume =>
    simp only [step, Option.ite_none_right_eq_some, Option.some.injEq] at h
    obtain ⟨hp, rfl⟩ := h
    exact .resume hp
  | cancel =>
    simp only [step] at h
    split at h <;> cases h
    next hp => exact .cancel hp
  | push data =>
    simp only [step, Option.ite_none_left_eq_some, Option.some.injEq] at h
    obtain ⟨hn, rfl⟩ := h
    exact .push data (by simpa using hn)
  | markClosed =>
    simp only [step, Option.ite_none_left_eq_some, Option.some.injEq] at h
    obtain ⟨hn, rfl⟩ := h
    exact .markClosed (by simpa using hn)
  | notify =>
    simp only [step, Option.ite_none_right_eq_some, Option.some.injEq] at h
    obtain ⟨hn, rfl⟩ := h
    exact .notify hn

/-! ### Waking the receiver -/

/-- Left to itself, the receiver sleeps on a datagram or a close: it has looked before
they came, and its future does not exist yet or has not been woken. -/
def Missed (s : Receiver) : Prop :=
  match s.phase with
  | .testing => s.queue.inner ≠ [] ∧ s.queue.closed = false
  | .subscribing | .parked false => s.queue.inner ≠ [] ∨ s.queue.closed = true
  | .idle | .popping | .parked true => False

/-- Awaiting the future with no notification pending. -/
def Asleep (s : Receiver) : Prop := s.phase = .parked false ∧ s.notifying = false

instance (s : Receiver) : Decidable s.Missed := by
  unfold Missed
  split <;> infer_instance

instance (s : Receiver) : Decidable s.Asleep := inferInstanceAs (Decidable (_ ∧ _))

/-- A call of `notify_waiters` finds the future created, or the receiver not yet past the
look that shows it the change. -/
def Heeded (s : Receiver) : RecvAct → Prop
  | .notify => s.phase.isParked = true ∨ ¬s.Missed
  | _ => True

instance (s : Receiver) : ∀ a, Decidable (s.Heeded a)
  | .notify => inferInstanceAs (Decidable (_ ∨ _))
  | .call | .pop | .test | .subscribe | .resume | .cancel | .push _ | .markClosed =>
    inferInstanceAs (Decidable True)

/-- What is missed, a notification is still to come for. -/
def Told (s : Receiver) : Prop := s.notifying = false → ¬s.Missed

/-- **A heeded step keeps the receiver told.** -/
theorem Told.step (ht : s.Turn a t) (hheed : s.Heeded a) (h : s.Told) : t.Told := by
  intro hn
  cases ht with
  | call | took | ended | resume | cancel => exact id
  | empty hp hq => exact fun hm => hm.1 hq
  | goesOn hp hc =>
    have hold : ¬s.Missed := h hn
    simp only [Missed, hp, hc, and_true, not_not] at hold
    simp [Missed, hold, hc]
  | subscribe hp =>
    have hold : ¬s.Missed := h hn
    simpa only [Missed, hp] using hold
  | push | markClosed => cases hn
  | notify hn' =>
    cases hp : s.phase with
    | parked woken => simp [Missed, RecvPhase.notifyWaiters]
    | idle | popping | testing | subscribing =>
      have hnot : ¬s.Missed := hheed.resolve_left (by simp [hp, RecvPhase.isParked])
      simpa only [Missed, hp, RecvPhase.notifyWaiters] using hnot

/-- What a run reaches whose steps are each allowed by `ok`. -/
def Reachable (ok : Receiver → RecvAct → Prop) (s : Receiver) : Prop := (Steps.restrict ok).Reaches init s

/-- A state found by computing a run. -/
theorem exists_of_run (ok : Receiver → RecvAct → Prop) [∀ s a, Decidable (ok s a)] (acts : List RecvAct)
    (check : Receiver → Bool)
    (h : (System.compute step (fun _ _ _ u => u) (fun s => ok s.1) (init, ()) acts).any
      (fun s => check s.1) = true) : ∃ s, Reachable ok s ∧ check s = true :=
  System.exists_of_compute_unwatched (fun h => h) h

/-- The step is one of the receiver itself. -/
def ofReceiver (a : RecvAct) : Prop := a = .test ∨ a = .subscribe

/-- A `recv` that awaits when `q` is closed is woken, finds nothing to take and returns `None`. -/
def EndsRecv (q : UdpQueue) : Prop :=
  ∀ woken, ∃ s, [.markClosed, .notify, .resume, .pop].foldlM step ⟨q, .parked woken, false⟩ = some s ∧
    s.queue = q.markClosed ∧ s.phase = .testing ∧ s.returns .test = some none

/-- The close of a queue that has been read ends the `recv` that awaits. -/
theorem endsRecv_of_read {q : UdpQueue} (h : q.inner = []) : EndsRecv q := by
  intro woken
  refine ⟨⟨q.markClosed, .testing, false⟩, ?_, rfl, rfl, rfl⟩
  simp [step, RecvPhase.notifyWaiters, UdpQueue.markClosed, UdpQueue.pop, h]

/-- Left to itself, a receiver that has missed a change falls asleep on it. -/
theorem asleep_of_missed (hm : s.Missed) (hn : s.notifying = false) :
    ∃ u, (Steps.restrict fun _ a => ofReceiver a).Reaches s u ∧ u.Asleep ∧
      (u.queue.inner ≠ [] ∨ u.queue.closed = true) := by
  -- the last step, from the test of the flag on
  have last : ∀ s : Receiver, s.phase = .subscribing → s.notifying = false →
      (Steps.restrict fun _ a => ofReceiver a).Reaches s { s with phase := .parked false } := by
    intro s hp hn
    exact (System.Reaches.refl _ s).step (l := .subscribe) ⟨.inr rfl, by simp [Steps, step, hp]⟩
  cases hp : s.phase with
  | testing =>
    simp only [Missed, hp] at hm
    have first : (Steps.restrict fun _ a => ofReceiver a).Reaches s { s with phase := .subscribing } :=
      (System.Reaches.refl _ s).step (l := .test) ⟨.inl rfl, by simp [Steps, step, hp, hm.2]⟩
    exact ⟨_, Relation.ReflTransGen.trans first (last _ rfl hn), ⟨rfl, hn⟩, .inl hm.1⟩
  | subscribing =>
    simp only [Missed, hp] at hm
    exact ⟨_, last s hp hn, ⟨rfl, hn⟩, hm⟩
  | parked woken =>
    cases woken with
    | false =>
      simp only [Missed, hp] at hm
      exact ⟨s, System.Reaches.refl _ s, ⟨hp, hn⟩, hm⟩
    | true => simp [Missed, hp] at hm
  | idle | popping => simp [Missed, hp] at hm

end Receiver

/-- **The receiver is never asleep on a datagram or a close**, along every run in which
each call of `notify_waiters` finds the receiver's future created or the receiver not yet
past the look that shows it the change. The condition is exact: after a call that breaks
it the receiver alone falls asleep on what it has missed. -/
theorem receiver_not_asleep (s : Receiver) :
    (Receiver.Reachable Receiver.Heeded s → s.Asleep → s.queue.inner = [] ∧ s.queue.closed = false) ∧
    (∀ a t, Receiver.Reachable (fun _ _ => True) s → Receiver.Steps s a t → ¬s.Heeded a →
      ∃ u, (Receiver.Steps.restrict fun _ a => Receiver.ofReceiver a).Reaches t u ∧ u.Asleep ∧
        (u.queue.inner ≠ [] ∨ u.queue.closed = true)) := by
  refine ⟨fun hs hasleep => ?_, fun a t _ hstep hheed => ?_⟩
  · have htold : s.Told := by
      refine System.Reaches.invariant hs (fun _ => id) ?_
      intro s a t _ htold hstep
      exact htold.step (Receiver.turn_of_step hstep.2) hstep.1
    have hnot := htold hasleep.2
    simp only [Receiver.Missed, hasleep.1, not_or, not_not, Bool.not_eq_true] at hnot
    exact hnot
  · cases Receiver.turn_of_step hstep with
    | notify hn =>
      obtain ⟨hparked, hmissed⟩ := not_or.mp hheed
      refine Receiver.asleep_of_missed ?_ rfl
      -- the call leaves a receiver that is not parked as it is
      cases hp : s.phase with
      | parked woken => exact absurd (by simp [hp, RecvPhase.isParked]) hparked
      | idle | popping => simp [Receiver.Missed, hp] at hmissed
      | testing | subscribing =>
        simpa only [Receiver.Missed, hp, RecvPhase.notifyWaiters, not_not] using hmissed
    | call | took | empty | ended | goesOn | subscribe | resume | cancel | push | markClosed =>
      exact absurd trivial hheed

/-- A receiver is woken by a datagram, returns it, and sleeps again with nothing left. -/
theorem receiver_not_asleep_served : ∃ s, Receiver.Reachable Receiver.Heeded s ∧ s.Asleep ∧
    s.queue.inner = [] ∧ s.queue.closed = false := by
  obtain ⟨s, hs, hcheck⟩ := Receiver.exists_of_run Receiver.Heeded
    [.call, .pop, .test, .subscribe, .push [7], .notify, .resume, .pop, .call, .pop, .test, .subscribe]
    (fun s => decide s.Asleep) (by decide)
  have hasleep := of_decide_eq_true hcheck
  exact ⟨s, hs, hasleep, (receiver_not_asleep s).1 hs hasleep⟩

/-- The receiver is asleep on a datagram whose `notify_waiters` came between its test of
the flag and its future; and, in the same way, on a close, for good. -/
theorem receiver_asleep_on_change :
    (∃ s, Receiver.Reachable (fun _ _ => True) s ∧ s.Asleep ∧ s.queue.inner = [[7]]) ∧
    (∃ s, Receiver.Reachable (fun _ _ => True) s ∧ s.Asleep ∧ s.queue.closed = true) := by
  constructor
  · obtain ⟨s, hs, hcheck⟩ := Receiver.exists_of_run (fun _ _ => True)
      [.call, .pop, .test, .push [7], .notify, .subscribe]
      (fun s => decide (s.Asleep ∧ s.queue.inner = [[7]])) (by decide)
    obtain ⟨hasleep, hinner⟩ := of_decide_eq_true hcheck
    exact ⟨s, hs, hasleep, hinner⟩
  · obtain ⟨s, hs, hcheck⟩ := Receiver.exists_of_run (fun _ _ => True)
      [.call, .pop, .test, .markClosed, .notify, .subscribe]
      (fun s => decide (s.Asleep ∧ s.queue.closed = true)) (by decide)
    obtain ⟨hasleep, hclosed⟩ := of_decide_eq_true hcheck
    exact ⟨s, hs, hasleep, hclosed⟩

/-! ### What is delivered -/

/-- What has gone into a queue and come out of `recv`. -/
structure Delivery where
  /-- The datagrams pushed. -/
  pushed : List Bytes
  /-- Those of them pushed before the queue was first closed, once it is. -/
  beforeClose : Option (List Bytes)
  /-- The datagrams returned. -/
  returned : List Bytes
  deriving DecidableEq

namespace Receiver

/-- Note what is pushed, closed and returned. -/
def watchDelivery (s : Receiver) (a : RecvAct) (_ : Receiver) (d : Delivery) : Delivery :=
  match a with
  | .push data => { d with pushed := d.pushed ++ [data] }
  | .markClosed => { d with beforeClose := d.beforeClose.or (some d.pushed) }
  | a => { d with returned := d.returned ++ (s.returns a).join.toList }

/-- The runs watched, whose steps are each allowed by `ok`. -/
def Watched (ok : Receiver × Delivery → RecvAct → Prop) (s : Receiver × Delivery) : Prop :=
  ((Steps.observe watchDelivery).restrict ok).Reaches (init, ⟨[], none, []⟩) s

/-- A state found by computing a run. -/
theorem exists_watched (ok : Receiver × Delivery → RecvAct → Prop) [∀ s a, Decidable (ok s a)]
    (acts : List RecvAct) (check : Receiver × Delivery → Bool)
    (h : (System.compute step watchDelivery ok (init, ⟨[], none, []⟩) acts).any check = true) :
    ∃ s, Watched ok s ∧ check s = true :=
  System.exists_of_compute (fun h => h) h

/-- The queue is not closed with datagrams in it that came after the receiver's `pop` and
before its test of the flag. -/
def ClosedRead (s : Receiver × Delivery) : RecvAct → Prop
  | .markClosed => s.1.phase = .testing → s.1.queue.inner = [] ∨ s.1.queue.closed = true
  | _ => True

instance (s : Receiver × Delivery) : ∀ a, Decidable (ClosedRead s a)
  | .markClosed => inferInstanceAs (Decidable (_ → _))
  | .call | .pop | .test | .subscribe | .resume | .cancel | .push _ | .notify =>
    inferInstanceAs (Decidable True)

/-- What was pushed is what was returned, followed by what is in the queue; and the flag
is set when something was noted before the close. -/
structure Conserved (s : Receiver × Delivery) : Prop where
  queue : s.2.pushed = s.2.returned ++ s.1.queue.inner
  closed : s.1.queue.closed = s.2.beforeClose.isSome
  early : ∀ ds ∈ s.2.beforeClose, ds <+: s.2.pushed

variable {s t : Receiver} {a : RecvAct} {d : Delivery}

/-- **Every step conserves the datagrams.** -/
theorem Conserved.step (ht : s.Turn a t) (h : Conserved (s, d)) :
    Conserved (t, watchDelivery s a t d) := by
  obtain ⟨hq, hc, he⟩ := h
  cases ht with
  | call | subscribe | resume | cancel | notify => exact ⟨by simpa [watchDelivery, returns] using hq, hc, he⟩
  | ended hp hcl | goesOn hp hcl => exact ⟨by simpa [watchDelivery, returns, hcl] using hq, hc, he⟩
  | empty hp hi => exact ⟨by simpa [watchDelivery, returns, UdpQueue.pop, hi] using hq, hc, he⟩
  | @took data rest hp hi =>
    refine ⟨?_, hc, he⟩
    simpa [watchDelivery, returns, UdpQueue.pop, hi] using hq
  | push data hn =>
    refine ⟨?_, hc, fun ds hds => (he ds hds).trans (List.prefix_append _ _)⟩
    have hq : d.pushed = d.returned ++ s.queue.inner := hq
    simp [watchDelivery, UdpQueue.push, hq]
  | markClosed hn =>
    refine ⟨hq, ?_, fun ds hds => ?_⟩
    · cases hb : d.beforeClose <;> simp [watchDelivery, UdpQueue.markClosed, hb]
    · cases hb : d.beforeClose with
      | none =>
        simp only [watchDelivery, hb, Option.none_or, Option.mem_some_iff] at hds
        rw [← hds]
        exact List.prefix_refl _
      | some ds' =>
        simp only [watchDelivery, hb, Option.some_or, Option.mem_some_iff] at hds
        exact he ds (by simp [hb, hds])

/-- A receiver about to test the flag has read what came before the close. -/
def ReadOut (s : Receiver × Delivery) : Prop :=
  s.1.phase = .testing → ∀ ds ∈ s.2.beforeClose, ds <+: s.2.returned

theorem ReadOut.step (ht : s.Turn a t) (hok : ClosedRead (s, d) a) (hcons : Conserved (s, d))
    (h : ReadOut (s, d)) : ReadOut (t, watchDelivery s a t d) := by
  intro hp ds hds
  cases ht with
  | call | took | ended | goesOn | subscribe | resume | cancel => cases hp
  | empty hp hi =>
    have hall : d.pushed = d.returned := by simpa [hi] using hcons.queue
    have hpre : ds <+: d.pushed := hcons.early ds hds
    simpa [watchDelivery, returns, UdpQueue.pop, hi, ← hall] using hpre
  | push data hn => exact h hp ds hds
  | markClosed hn =>
    cases hb : d.beforeClose with
    | some ds' =>
      have hds : some ds' = some ds := by simpa [watchDelivery, hb] using hds
      exact h hp ds (by simpa [hb] using hds)
    | none =>
      -- the flag is set now: the condition says that nothing is left
      have hds : d.pushed = ds := by simpa [watchDelivery, hb] using hds
      have hopen : s.queue.closed = false := by simpa [hb] using hcons.closed
      have hempty : s.queue.inner = [] := (hok hp).resolve_right (by simp [hopen])
      have hall : d.pushed = d.returned := by simpa [hempty] using hcons.queue
      exact hds ▸ hall ▸ List.prefix_refl _
  | notify hn =>
    have hp : s.phase = .testing := by
      cases hs : s.phase with
      | testing => rfl
      | idle | popping | subscribing | parked => simp [hs, RecvPhase.notifyWaiters] at hp
    simpa [watchDelivery, returns] using h hp ds hds

theorem Watched.conserved {ok : Receiver × Delivery → RecvAct → Prop} {s : Receiver × Delivery}
    (h : Watched ok s) : Conserved s := by
  refine System.Reaches.invariant h ⟨rfl, rfl, fun ds hds => by cases hds⟩ ?_
  rintro ⟨s, d⟩ a ⟨t, d'⟩ - hcons ⟨-, hstep, hobs⟩
  cases hobs
  exact hcons.step (turn_of_step hstep)

theorem Watched.readOut {s : Receiver × Delivery} (h : Watched ClosedRead s) : ReadOut s := by
  refine System.Reaches.invariant (P := ReadOut) h (fun hp => by cases hp) ?_
  rintro ⟨s, d⟩ a ⟨t, d'⟩ hs hread ⟨hok, hstep, hobs⟩
  cases hobs
  exact hread.step (turn_of_step hstep) hok (Watched.conserved hs)

end Receiver

/-- **A session delivers its queue in order and, before it ends, completely.** Along every
run the datagrams returned are a prefix of those pushed. When `recv` returns `None` the
queue is closed, and everything pushed before the close has been returned, along every run
in which the queue is never closed with a datagram in it that came between the receiver's
`pop` and its test of the flag. That condition is exact: where it is broken, the test that
follows ends the session with the datagram unread. -/
theorem session_delivered (s : Receiver × Delivery) :
    (Receiver.Watched (fun _ _ => True) s → s.2.returned <+: s.2.pushed) ∧
    (∀ a t, Receiver.Watched Receiver.ClosedRead s → Receiver.Steps s.1 a t → s.1.returns a = some none →
      s.1.queue.closed = true ∧ ∃ ds, s.2.beforeClose = some ds ∧ ds <+: s.2.returned) ∧
    (∀ a t, Receiver.Watched (fun _ _ => True) s → Receiver.Steps.observe Receiver.watchDelivery s a t →
      ¬Receiver.ClosedRead s a → (t.1.step .test).isSome ∧ t.1.returns .test = some none ∧
        ∃ ds, t.2.beforeClose = some ds ∧ ¬ds <+: t.2.returned) := by
  refine ⟨fun hs => ?_, fun a t hs hstep hret => ?_, ?_⟩
  · rw [hs.conserved.queue]
    exact List.prefix_append _ _
  · cases Receiver.turn_of_step hstep with
    | ended hp hc =>
      refine ⟨hc, ?_⟩
      obtain ⟨ds, hds⟩ := Option.isSome_iff_exists.mp (hs.conserved.closed ▸ hc)
      exact ⟨ds, hds, hs.readOut hp ds hds⟩
    | goesOn hp hc => simp [Receiver.returns, hc] at hret
    | took hp hq | empty hp hq => simp [Receiver.returns, UdpQueue.pop, hq] at hret
    | call | subscribe | resume | cancel | push | markClosed | notify => cases hret
  · obtain ⟨s, d⟩ := s
    rintro a ⟨t, d'⟩ hs ⟨hstep, hobs⟩ hnot
    cases hobs
    cases Receiver.turn_of_step hstep with
    | markClosed hn =>
      obtain ⟨hp, hleft⟩ := Classical.not_imp.mp hnot
      obtain ⟨hinner, hopen⟩ := not_or.mp hleft
      have hp : s.phase = .testing := hp
      have hnone : d.beforeClose = none := by
        rw [← Option.not_isSome_iff_eq_none, ← hs.conserved.closed]
        exact hopen
      refine ⟨by simp [Receiver.step, hp], rfl, d.pushed, by simp [hnone], fun hpre => ?_⟩
      -- the datagrams in the queue were pushed and not returned
      have hlen : d.pushed.length ≤ d.returned.length := hpre.length_le
      have hpos : 0 < s.queue.inner.length := List.length_pos_iff.mpr hinner
      have hq : d.pushed = d.returned ++ s.queue.inner := hs.conserved.queue
      rw [hq, List.length_append] at hlen
      omega
    | call | took | empty | ended | goesOn | subscribe | resume | cancel | push | notify =>
      exact absurd trivial hnot

/-- Two datagrams are returned, the second after the close, and the session ends. -/
theorem session_delivered_drained : ∃ s : Receiver × Delivery,
    Receiver.Watched Receiver.ClosedRead s ∧ s.1.returns .test = some none ∧
      s.2.returned = [[7], [8]] ∧ ∃ ds, s.2.beforeClose = some ds ∧ ds <+: s.2.returned := by
  obtain ⟨s, hs, hcheck⟩ := Receiver.exists_watched Receiver.ClosedRead
    [.push [7], .notify, .push [8], .notify, .call, .pop, .markClosed, .notify, .call, .pop, .call, .pop]
    (fun s => decide (s.1.phase = .testing ∧ s.1.queue.closed = true ∧ s.2.returned = [[7], [8]]))
    (by decide)
  obtain ⟨hp, hc, hret⟩ := of_decide_eq_true hcheck
  have hnone : s.1.returns .test = some none := by simp [Receiver.returns, hc]
  have hstep : Receiver.Steps s.1 .test { s.1 with phase := .idle } := by
    simp [Receiver.Steps, Receiver.step, hp, hc]
  exact ⟨s, hs, hnone, hret, ((session_delivered s).2.1 .test _ hs hstep hnone).2⟩

/-- A datagram and the close come between the `pop` and the test: `recv` returns `None`
and the datagram, pushed before the close, has not been returned. -/
theorem session_ended_unread : ∃ s : Receiver × Delivery,
    Receiver.Watched (fun _ _ => True) s ∧ (s.1.step .test).isSome ∧ s.1.returns .test = some none ∧
      s.2.beforeClose = some [[7]] ∧ s.2.returned = [] := by
  obtain ⟨s, hs, hcheck⟩ := Receiver.exists_watched (fun _ _ => True)
    [.call, .pop, .push [7], .notify, .markClosed, .notify]
    (fun s => decide ((s.1.step .test).isSome ∧ s.1.returns .test = some none ∧
      s.2.beforeClose = some [[7]] ∧ s.2.returned = [])) (by decide)
  exact ⟨s, hs, of_decide_eq_true hcheck⟩

end WayNetstack
