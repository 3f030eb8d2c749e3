import WayNetstack.Registry.Outcome
import WayNetstack.Runner.Wakeups
import WayNetstack.Udp.Receiver

/-!
# Deadlines

At the top of its loop the runner arms a sleep. It is meant to end when something falls
due: a timer of the engine, or the timeout of a UDP session.

* `sleep_within_delays`: the sleep is within the poll delays of all interfaces **just when
  no interface is due at once**. A delay of zero counts as none, and the runner sleeps for
  an hour.
* `sleep_within_timeouts`: the sleep ends before every session's timeout **just when the
  engine happens to ask for it**, or when no session ends within the hour, since the delay
  is computed from the engine's timers alone. The sweep at the end of the sleep ends the idle
  sessions whose timeout has passed by then.
-/

namespace WayNetstack

open Lib Lib.Table Lib.Traced

variable {S : Smoltcp}

/-! ### The engine's timers -/

/-- The poll delays that the interfaces report. -/
def Core.reported (c : Core S) (now : Instant) : List Duration :=
  c.slots.filterMap fun slot => S.pollDelay now slot.iface slot.sockets

theorem Core.mem_reported {c : Core S} {now : Instant} {d : Duration} :
    d ∈ c.reported now ↔ ∃ slot ∈ c.slots, S.pollDelay now slot.iface slot.sockets = some d :=
  List.mem_filterMap

theorem nextPollDelay_eq (c : Core S) (now : Instant) : nextPollDelay c now = (c.reported now).min? := rfl

/-- The sleep for the least of some delays. -/
theorem sleepFor_min? (ds : List Duration) :
    ((ds = [] ∨ 0 ∈ ds) → sleepFor ds.min? = idleSleep) ∧
    (ds ≠ [] → 0 ∉ ds → sleepFor ds.min? ∈ ds ∧ ∀ d ∈ ds, sleepFor ds.min? ≤ d) := by
  constructor
  · rintro (rfl | hzero)
    · rfl
    · have hmin : ds.min? = some 0 := List.min?_eq_some_iff.mpr ⟨hzero, fun d _ => Nat.zero_le d⟩
      rw [hmin]
      rfl
  · intro hne hzero
    obtain ⟨d, hd⟩ := Option.ne_none_iff_exists'.mp (mt List.min?_eq_none_iff.mp hne)
    obtain ⟨hmem, hle⟩ := List.min?_eq_some_iff.mp hd
    have hsleep : sleepFor ds.min? = d := by
      rw [hd]
      exact if_neg (ne_of_mem_of_not_mem hmem hzero)
    rw [hsleep]
    exact ⟨hmem, hle⟩

/-- What the runner does at the top of its loop. -/
theorem Runtime.step_delay {s : Runtime S} (hp : s.phase = .top) (now : Instant) :
    s.step (.delay now) =
      some { s with phase := .armed (sleepFor (s.world.core.reported now).min?) } := by
  simp [step, hp, nextPollDelay_eq]

/-- **The sleep and the engine's timers.** The sleep that `run` arms at the top of its loop
is no longer than any poll delay reported, and is one of them if there are any, just when no
interface reports a delay of zero. -/
theorem sleep_within_delays {s : Runtime S} (hp : s.phase = .top) (now : Instant) :
    ∃ sleep, s.step (.delay now) = some { s with phase := .armed sleep } ∧
      (((∀ slot ∈ s.world.core.slots, ∀ d ∈ S.pollDelay now slot.iface slot.sockets, sleep ≤ d) ∧
          (sleep = idleSleep ∧ (∀ slot ∈ s.world.core.slots, S.pollDelay now slot.iface slot.sockets = none) ∨
            ∃ slot ∈ s.world.core.slots, S.pollDelay now slot.iface slot.sockets = some sleep)) ↔
        ∀ slot ∈ s.world.core.slots, S.pollDelay now slot.iface slot.sockets ≠ some 0) := by
  refine ⟨_, s.step_delay hp now, ?_⟩
  obtain ⟨hidle, hleast⟩ := sleepFor_min? (s.world.core.reported now)
  constructor
  · rintro ⟨hle, -⟩ slot hslot hzero
    -- an interface due at once makes the sleep an hour
    have hsleep := hidle (.inr (Core.mem_reported.mpr ⟨slot, hslot, hzero⟩))
    rw [hsleep] at hle
    exact absurd (hle slot hslot 0 hzero) (by decide)
  · intro hnz
    have hzero : 0 ∉ s.world.core.reported now := fun h => by
      obtain ⟨slot, hslot, h⟩ := Core.mem_reported.mp h
      exact hnz slot hslot h
    by_cases hnil : s.world.core.reported now = []
    · have hnone : ∀ slot ∈ s.world.core.slots, S.pollDelay now slot.iface slot.sockets = none :=
        List.filterMap_eq_nil_iff.mp hnil
      refine ⟨fun slot hslot d hd => ?_, .inl ⟨hidle (.inl hnil), hnone⟩⟩
      rw [hnone slot hslot] at hd
      cases hd
    · obtain ⟨hmem, hle⟩ := hleast hnil hzero
      exact ⟨fun slot hslot d hd => hle d (Core.mem_reported.mpr ⟨slot, hslot, hd⟩),
        .inr (Core.mem_reported.mp hmem)⟩

/-- A state of the loop found by computing a run. -/
theorem Runtime.exists_of_run (b : NetstackBuilder S) (acts : List (Act S)) (check : Runtime S → Bool)
    (h : (System.compute step (fun _ _ _ u => u) (fun _ _ => True) (init b, ()) acts).any
      (fun s => check s.1) = true) : ∃ s, Reachable b s ∧ check s = true :=
  System.exists_of_compute_free (fun h => h) h

namespace Reference

/-- The reference engine with a timer that fires in a quarter of a second. -/
def ticking : Smoltcp := { reference with pollDelay := fun _ _ _ => some 250000 }

/-- A client opens a session, and the application does `acts` while the cycle's packets are
being forwarded; the runner is at the top of its loop. -/
def openSession (acts : List (Act reference)) : List (Act reference) :=
  [.sendIp ⟨eth, udpPacket client server [1]⟩, .notify, .delay 0, .park, .recv, .drained,
    .cycle 0 fun _ => [hears 0 [([1], client)]]] ++ acts ++ [.accept, .done]

end Reference

open Reference in
/-- The runner sleeps for the quarter of a second that the engine asks for. -/
theorem sleep_within_delays_ticking : ∃ s : Runtime ticking, s.phase = .top ∧
    s.world.core.reported 0 = [250000] ∧ s.step (.delay 0) = some { s with phase := .armed 250000 } ∧
      ∀ slot ∈ s.world.core.slots, ∀ d ∈ ticking.pollDelay 0 slot.iface slot.sockets, 250000 ≤ d := by
  let s : Runtime ticking := .init ⟨.default, [(eth, ())], by decide⟩
  have hp : s.phase = .top := rfl
  obtain ⟨sleep, hstep, hiff⟩ := sleep_within_delays hp 0
  obtain rfl : 250000 = sleep :=
    Phase.armed.inj (congrArg Runtime.phase (Option.some.inj ((s.step_delay hp 0).symm.trans hstep)))
  exact ⟨s, hp, rfl, hstep, (hiff.mpr (by simp [ticking])).1⟩

open Reference in
/-- A datagram is sent between a cycle and the next turn of the loop. The interface is due
at once, and the runner sleeps for an hour. -/
theorem sleep_past_due : ∃ (s : Runtime reference) (slot : InterfaceSlot reference),
    Runtime.Reachable (trial .default) s ∧ s.phase = .top ∧ slot ∈ s.world.core.slots ∧
      reference.pollDelay 1 slot.iface slot.sockets = some 0 ∧
      s.step (.delay 1) = some { s with phase := .armed idleSleep } := by
  obtain ⟨s, hs, hcheck⟩ := Runtime.exists_of_run (trial .default)
    (openSession [.app (.send (sessionOf ⟨eth, .udp, client, server⟩ 0 0) [2]), .notify])
    (fun s => decide (s.phase = .top ∧ s.world.core.reported 1 = [0])) (by decide +kernel)
  obtain ⟨hp, hreported⟩ := of_decide_eq_true hcheck
  obtain ⟨slot, hslot, hzero⟩ := Core.mem_reported.mp (hreported ▸ List.mem_singleton_self 0)
  refine ⟨s, slot, hs, hp, hslot, hzero, ?_⟩
  rw [s.step_delay hp, hreported]
  rfl

/-! ### The timeouts of sessions -/

/-- What the engine's times are. -/
structure Smoltcp.Clock (S : Smoltcp) : Prop where
  /-- `Instant - Instant`, of a later and an earlier one. -/
  since : ∀ {t₀ t : Instant}, t₀ ≤ t → (S.since t t₀ : ℤ) = t - t₀
  /-- `Duration::from`, of as many microseconds as fit into 64 bits. -/
  durationFrom : ∀ nanos, nanos / 1000 < 2 ^ 64 → S.durationFrom nanos = nanos / 1000

/-- `udp_session_timeout` in microseconds. No moment of the clock lies between two of them, so
that the part left out makes no difference. -/
def NetstackConfig.udpTimeout (config : NetstackConfig) : Duration := config.udpSessionTimeout / 1000

/-- The moment after which an entry has expired. -/
def UdpEntry.expiry (e : UdpEntry) (config : NetstackConfig) : Instant := e.lastActivity + config.udpTimeout

/-- No session expires before `t`. -/
def Core.LiveUntil (c : Core S) (t : Instant) : Prop :=
  ∀ x ∈ c.manager.udp.entries, t ≤ x.2.expiry c.config

instance (c : Core S) (t : Instant) : Decidable (c.LiveUntil t) :=
  inferInstanceAs (Decidable (∀ x ∈ _, _))

/-- The engine asks for a poll before any session expires; or it asks for none, or for one
at once, and no session expires within the hour. -/
def Core.WakesInTime (c : Core S) (now : Instant) : Prop :=
  if c.reported now = [] ∨ 0 ∈ c.reported now then c.LiveUntil (now + idleSleep)
  else ∃ d ∈ c.reported now, c.LiveUntil (now + d)

instance (c : Core S) (now : Instant) : Decidable (c.WakesInTime now) :=
  inferInstanceAs (Decidable (ite _ _ _))

/-- An entry has expired once its expiry has passed, if its timeout is one that the engine can
count to. -/
theorem UdpEntry.expiredAt_iff (hC : S.Clock) {config : NetstackConfig} (ht : config.udpTimeout < 2 ^ 64)
    {e : UdpEntry} {now : Instant} (hle : e.lastActivity ≤ now) :
    e.expiredAt S now config.udpSessionTimeout = true ↔ e.expiry config < now := by
  unfold expiredAt expiry
  rw [decide_eq_true_iff, hC.durationFrom _ ht, ← Int.ofNat_lt, hC.since hle]
  exact ⟨Int.add_lt_of_lt_sub_left, Int.lt_sub_left_of_add_lt⟩

theorem Core.liveUntil_iff {c : Core S} {t : Instant} : c.LiveUntil t ↔
    ∀ k e, c.manager.udp.lookup k = some e → t ≤ e.expiry c.config :=
  ⟨fun h _ _ he => h _ (lookup_eq_some.mp he), fun h x hx => h x.1 x.2 (lookup_eq_some.mpr hx)⟩

section Sweep

variable {c : Core S} {streams : List WayTcpStream} {sessions : List WayUdpSession} {now : Instant}
  {polls : InterfaceId → List (PollEvent S)} {r : Cycle S}

/-- What a cycle does to a session that nothing was received for: it is ended if it has expired,
and its queue is closed then. -/
theorem Cycle.Outcome.swept (hr : c.Registered streams sessions)
    (h : r.Outcome c now polls) {k : SessionKey} {e : UdpEntry} (he : c.manager.udp.lookup k = some e)
    (hidle : r.polled.heldFor k = []) :
    (r.core.manager.udp.lookup k = none ↔ e.expiredAt S now c.config.udpSessionTimeout = true) ∧
      ∃ q, c.queues[e.queue]? = some q ∧ (e.expiredAt S now c.config.udpSessionTimeout = true →
        r.core.queues[e.queue]? = some q.markClosed) := by
  have hok : Ok (Call.Good False) (prePass c now) _ := prePass_ok hr
  have hadm := (hok.post h.admitted).1
  have hpolled : r.polled.manager.udp.lookup k = some e := by
    rw [h.polled]
    exact Admits.keeps_udp hadm he
  have hconfig : r.polled.config = c.config := by
    rw [h.polled]
    exact Admits.config hadm
  have hsettled : r.polled.settled now k e =
      if e.expiredAt S now c.config.udpSessionTimeout = true then none else some e := by
    unfold Core.settled
    simp only [if_pos hidle, hconfig]
  obtain ⟨q, hq⟩ : ∃ q, c.queues[e.queue]? = some q := by
    have hopen : (c.queues.map (·.closed))[e.queue]? = some false := hr.udp.isOpen he
    rw [List.getElem?_map] at hopen
    obtain ⟨q, hq, -⟩ := Option.map_eq_some_iff.mp hopen
    exact ⟨q, hq⟩
  rw [h.core]
  refine ⟨?_, q, hq, fun hexp => ?_⟩
  · show r.post.core.manager.udp.lookup k = none ↔ _
    rw [h.post.udp, hpolled, Option.bind_some, hsettled, ite_eq_left_iff]
    simp
  · show r.post.core.queues[e.queue]? = some q.markClosed
    have hqueue : r.polled.queues[e.queue]? = some q := by
      rw [h.polled]
      exact Admits.keeps_queue hadm hq
    rw [h.post.queue hpolled, hqueue, hsettled, if_pos hexp, hidle]
    simp [UdpQueue.markClosed]

end Sweep

/-- **The sleep and the timeouts.** Let the timeout be one that the engine can count to. In every
state of the loop, the sleep that `run` arms at its top ends before every session's expiry just when
the core wakes in time. Undisturbed, the runner goes from there to the sweep at the end of the sleep:
of the sessions for which nothing was received it ends those whose expiry has passed, and no others;
it closes their queues, and a `recv` that awaits returns `None`. So it finds none to end just when
the core wakes in time. -/
theorem sleep_within_timeouts (hS : S.Lawful) (hC : S.Clock) {b : NetstackBuilder S}
    (ht : b.config.udpTimeout < 2 ^ 64) {s : Runtime S} (h : Runtime.Reachable b s) (hp : s.phase = .top)
    (now : Instant) :
    ∃ sleep, s.step (.delay now) = some { s with phase := .armed sleep } ∧
      ((∀ k e, s.world.core.manager.udp.lookup k = some e →
          now + sleep ≤ e.lastActivity + b.config.udpTimeout) ↔ s.world.core.WakesInTime now) ∧
      (s.channel = [] → s.handle = true → ∀ polls, ∃ r t,
        (pollOnce s.world.core (now + sleep) polls).result = .ok r ∧
        [.delay now, .park, .timeout, .drained, .cycle (now + sleep) polls].foldlM Runtime.step s = some t ∧
        (∀ k e, s.world.core.manager.udp.lookup k = some e → e.lastActivity ≤ now → r.polled.heldFor k = [] →
          (t.world.core.manager.udp.lookup k = none ↔ e.lastActivity + b.config.udpTimeout < now + sleep) ∧
          ∃ q, s.world.core.queues[e.queue]? = some q ∧ (e.lastActivity + b.config.udpTimeout < now + sleep →
            t.world.core.queues[e.queue]? = some q.markClosed ∧ (q.inner = [] → Receiver.EndsRecv q))) ∧
        ((∀ k e, s.world.core.manager.udp.lookup k = some e →
            e.lastActivity ≤ now ∧ r.polled.heldFor k = []) →
          ((∀ k e, s.world.core.manager.udp.lookup k = some e → t.world.core.manager.udp.lookup k ≠ none) ↔
            s.world.core.WakesInTime now))) := by
  have hw : s.world.Inv False b := World.Reachable.inv hS False.elim h.anyRun
  have hexpiry : ∀ e : UdpEntry, e.expiry s.world.core.config = e.lastActivity + b.config.udpTimeout := by
    intro e
    rw [hw.config]
    rfl
  obtain ⟨hidle, hleast⟩ := sleepFor_min? (s.world.core.reported now)
  generalize hsleep : sleepFor (s.world.core.reported now).min? = sleep at hidle hleast
  have hwakes : (∀ k e, s.world.core.manager.udp.lookup k = some e →
      now + sleep ≤ e.lastActivity + b.config.udpTimeout) ↔ s.world.core.WakesInTime now := by
    simp only [← hexpiry]
    rw [← Core.liveUntil_iff, Core.WakesInTime]
    split
    · next hnone => rw [hidle hnone]
    · next hsome =>
      push Not at hsome
      obtain ⟨hmem, hle⟩ := hleast hsome.1 hsome.2
      constructor
      · exact fun hlive => ⟨_, hmem, hlive⟩
      · -- the least delay is the one that ends first
        rintro ⟨d, hd, hlive⟩ x hx
        exact (Int.add_le_add_left (Int.ofNat_le.mpr (hle d hd)) now).trans (hlive x hx)
  refine ⟨sleep, hsleep ▸ s.step_delay hp now, hwakes, fun hc hh polls => ?_⟩
  obtain ⟨r, hr, hout, -⟩ := pollOnce_outcome hS hw.registered (now + sleep) polls
  have hswept : ∀ k e, s.world.core.manager.udp.lookup k = some e → e.lastActivity ≤ now →
      r.polled.heldFor k = [] →
      (r.core.manager.udp.lookup k = none ↔ e.lastActivity + b.config.udpTimeout < now + sleep) ∧
      ∃ q, s.world.core.queues[e.queue]? = some q ∧ (e.lastActivity + b.config.udpTimeout < now + sleep →
        r.core.queues[e.queue]? = some q.markClosed ∧ (q.inner = [] → Receiver.EndsRecv q)) := by
    intro k e he hle hheld
    obtain ⟨hgone, q, hq, hclosed⟩ := hout.swept hw.registered he hheld
    have hlater : e.lastActivity ≤ now + sleep := hle.trans (Int.le_add_of_nonneg_right (Int.natCast_nonneg _))
    have hexp := UdpEntry.expiredAt_iff hC (hw.config.symm ▸ ht) hlater
    rw [hexpiry] at hexp
    exact ⟨hgone.trans hexp, q, hq, fun hlt => ⟨hclosed (hexp.mpr hlt), Receiver.endsRecv_of_read⟩⟩
  refine ⟨r, { s with world := s.world.afterCycle r, phase := .forwarding r.egress }, hr, ?_, hswept, ?_⟩
  · simp [Runtime.step, hp, hc, hh, hr]
  · intro hall
    rw [← hwakes]
    -- a session is kept just when its expiry has not passed
    have hkept : ∀ k e, s.world.core.manager.udp.lookup k = some e →
        (r.core.manager.udp.lookup k ≠ none ↔ now + sleep ≤ e.lastActivity + b.config.udpTimeout) := by
      intro k e he
      obtain ⟨hle, hheld⟩ := hall k e he
      rw [Ne, (hswept k e he hle hheld).1, not_lt]
    exact forall₃_congr hkept

open Reference in
theorem reference_clock : reference.Clock where
  since := by
    intro t₀ t h
    show ((t - t₀).natAbs : ℤ) = t - t₀
    exact Int.natAbs_of_nonneg (Int.sub_nonneg_of_le h)
  durationFrom := fun _ h => Nat.mod_eq_of_lt h

open Reference in
/-- With a timeout of two hours the runner's hour ends in time. -/
theorem sleep_within_timeouts_patient : ∃ (s : Runtime reference) (e : UdpEntry),
    Runtime.Reachable (trial { NetstackConfig.default with udpSessionTimeout := 7200 * 1000000000 }) s ∧
      s.world.core.manager.udp.lookup ⟨eth, .udp, client, server⟩ = some e ∧
      s.step (.delay 1) = some { s with phase := .armed idleSleep } ∧
      1 + (idleSleep : ℤ) ≤ e.lastActivity + 7200000000 := by
  obtain ⟨s, hs, hcheck⟩ := Runtime.exists_of_run
    (trial { NetstackConfig.default with udpSessionTimeout := 7200 * 1000000000 }) (openSession [])
    (fun s => decide (s.phase = .top ∧ s.world.core.reported 1 = [] ∧ s.world.core.WakesInTime 1 ∧
      (s.world.core.manager.udp.lookup ⟨eth, .udp, client, server⟩).isSome)) (by decide +kernel)
  obtain ⟨hp, hreported, hwakes, hsome⟩ := of_decide_eq_true hcheck
  obtain ⟨e, he⟩ := Option.isSome_iff_exists.mp hsome
  obtain ⟨sleep, hstep, hiff, -⟩ := sleep_within_timeouts reference_lawful reference_clock (by decide) hs hp 1
  obtain rfl : idleSleep = sleep := by
    have := (s.step_delay hp 1).symm.trans hstep
    rw [hreported] at this
    exact Phase.armed.inj (congrArg Runtime.phase (Option.some.inj this))
  exact ⟨s, e, hs, he, hstep, hiff.mpr hwakes _ e he⟩

open Reference in
/-- A session that times out in thirty seconds is idle, and the runner sleeps for an hour. -/
theorem sleep_past_timeout : ∃ (s : Runtime reference) (e : UdpEntry),
    Runtime.Reachable (trial .default) s ∧ s.phase = .top ∧
      s.world.core.manager.udp.lookup ⟨eth, .udp, client, server⟩ = some e ∧
      s.step (.delay 1) = some { s with phase := .armed idleSleep } ∧
      e.lastActivity + NetstackConfig.default.udpTimeout < 1 + (idleSleep : ℤ) := by
  obtain ⟨s, hs, hcheck⟩ := Runtime.exists_of_run (trial .default) (openSession [])
    (fun s => decide (s.phase = .top ∧ s.world.core.reported 1 = [] ∧
      (s.world.core.manager.udp.lookup ⟨eth, .udp, client, server⟩).any fun e =>
        decide (e.lastActivity + NetstackConfig.default.udpTimeout < 1 + (idleSleep : ℤ))))
    (by decide +kernel)
  obtain ⟨hp, hreported, hany⟩ := of_decide_eq_true hcheck
  obtain ⟨e, he, hlt⟩ := (Option.any_eq_true _ _).mp hany
  refine ⟨s, e, hs, hp, he, ?_, of_decide_eq_true hlt⟩
  rw [s.step_delay hp, hreported]
  rfl

end WayNetstack
